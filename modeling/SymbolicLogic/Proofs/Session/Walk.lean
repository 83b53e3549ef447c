import SymbolicLogic.Proofs.Expression.Nodes
import SymbolicLogic.Proofs.Session.Growth

/-!
# Matching, node by node

A pattern without a pending substitution either is a metavariable, which is bound
to the whole concrete expression, or it matches an expression with the same head
whose parts match its parts from left to right.
-/

namespace SymbolicLogic

open Session Matching

namespace Expression

/-- Match two expressions of one sort. -/
def matchPart : Expression -> Expression -> Matching Unit
  | .formula pattern, .formula concrete => pattern.matchAgainst concrete
  | .term pattern, .term concrete => pattern.matchAgainst concrete
  | pattern, concrete => throw (.shapeMismatch pattern concrete)

/-- Patterns match expressions one after the other, from the first session to the
last. -/
inductive Walks : List Expression -> List Expression -> Session -> Session -> Prop
  | nil {session : Session} : Walks [] [] session session
  | cons
      {pattern concrete : Expression}
      {patterns concretes : List Expression}
      {before middle after : Session}
      (first : (pattern.matchPart concrete).Succeeds before middle)
      (others : Walks patterns concretes middle after) :
      Walks (pattern :: patterns) (concrete :: concretes) before after

variable {pattern concrete : Expression} {patterns concretes : List Expression}
  {before after : Session}

/-- A session grows when a part is matched. -/
theorem grows_matchPart (pattern concrete : Expression) :
    (pattern.matchPart concrete).Grows := by
  cases pattern <;> cases concrete
  · exact Formula.grows_matchAgainst _ _
  · exact Matching.StepLaw.growth.runLaw.throw _
  · exact Matching.StepLaw.growth.runLaw.throw _
  · exact Term.grows_matchAgainst _ _

/-- What succeeds grows the session. -/
theorem growsTo_of_succeeds
    (succeeds : (pattern.matchPart concrete).Succeeds before after) :
    before.GrowsTo after := by
  have grows := grows_matchPart pattern concrete before
  rw [succeeds] at grows
  exact grows

namespace Walks

/-- A session grows along a walk. -/
theorem growsTo (walks : Walks patterns concretes before after) :
    before.GrowsTo after := by
  induction walks with
  | nil => exact .refl
  | cons first _ inductionHypothesis =>
      exact (growsTo_of_succeeds first).trans inductionHypothesis

/-- What each match establishes for good holds of all patterns at the end. -/
theorem forall₂
    {Holds : Expression -> Expression -> Session -> Prop}
    (stable : ∀ {pattern concrete before after}, Holds pattern concrete before ->
      before.Extends after -> Holds pattern concrete after)
    (establishes : ∀ pattern ∈ patterns, ∀ {before after concrete},
      (pattern.matchPart concrete).Succeeds before after ->
        Holds pattern concrete after)
    (walks : Walks patterns concretes before after) :
    List.Forall₂ (fun pattern concrete => Holds pattern concrete after) patterns
      concretes := by
  induction walks with
  | nil => exact .nil
  | cons first others inductionHypothesis =>
      obtain ⟨establishesFirst, establishesOthers⟩ :=
        List.forall_mem_cons.mp establishes
      exact .cons (stable (establishesFirst first) others.growsTo.preserves)
        (inductionHypothesis establishesOthers)

/-- Patterns that each match from where the last one has left off match one after
the other. -/
theorem exists_of_forall₂
    {Holds : Session -> Prop}
    (each : List.Forall₂ (fun pattern concrete => ∀ before, Holds before ->
      ∃ after, (pattern.matchPart concrete).Succeeds before after ∧ Holds after)
      patterns concretes)
    (holds : Holds before) :
    ∃ after, Walks patterns concretes before after ∧ Holds after := by
  induction each generalizing before with
  | nil => exact ⟨before, .nil, holds⟩
  | cons first _ inductionHypothesis =>
      obtain ⟨middle, succeeds, holds⟩ := first before holds
      obtain ⟨after, walks, holds⟩ := inductionHypothesis holds
      exact ⟨after, .cons succeeds walks, holds⟩

@[simp] theorem nil_left_iff :
    Walks [] concretes before after ↔ concretes = [] ∧ after = before := by
  constructor
  · intro walks
    cases walks
    exact ⟨rfl, rfl⟩
  · rintro ⟨rfl, rfl⟩
    exact .nil

@[simp] theorem cons_nil_iff :
    ¬Walks (pattern :: patterns) [] before after :=
  nofun

/-- A walk begins with the first match and goes on from there. -/
@[simp] theorem cons_cons_iff :
    Walks (pattern :: patterns) (concrete :: concretes) before after ↔
      ∃ middle, (pattern.matchPart concrete).Succeeds before middle ∧
        Walks patterns concretes middle after := by
  constructor
  · intro walks
    cases walks with
    | cons first others => exact ⟨_, first, others⟩
  · rintro ⟨middle, first, others⟩
    exact .cons first others

end Walks

/-- Lists of terms are walked when they are of one length and match. -/
theorem walks_terms_iff {patterns concretes : List Term} :
    Walks (patterns.map .term) (concretes.map .term) before after ↔
      patterns.length = concretes.length ∧
        (Term.matchAll patterns concretes).Succeeds before after := by
  induction patterns generalizing concretes before with
  | nil => cases concretes <;> simp [Term.matchAll]
  | cons pattern patterns inductionHypothesis =>
      cases concretes with
      | nil => simp
      | cons concrete concretes =>
          simp [Term.matchAll, inductionHypothesis, matchPart, and_left_comm]

end Expression

open Expression

variable {before after : Session}

/-- An ordinary term is matched part by part with terms of its head. -/
theorem TermShape.succeeds_iff
    {shape : TermShape}
    (ordinary : shape.metaNode? = none)
    (concrete : Term) :
    (shape.matchAgainst concrete).Succeeds before after ↔
      concrete.transform? = none ∧ shape.head = concrete.shape.head ∧
        Walks (shape.children.map .term) (concrete.shape.children.map .term)
          before after := by
  rw [TermShape.matchAgainst.eq_def]
  cases shape with
  | leaf kind symbol =>
      rcases concrete with (_ | _ | _) | _ <;> cases kind <;>
        simp_all [Term.transform?, TermShape.head, TermShape.children,
          TermShape.metaNode?, TermLeaf.family?, and_assoc]
  | apply head symbol args =>
      cases head with
      | complexMeta => cases ordinary
      | function =>
          rcases concrete with (_ | ⟨head', _, _, _⟩ | _) | _
          · simp [Term.transform?, TermShape.head]
          · cases head' <;>
              simp [Term.transform?, TermShape.head, TermShape.children,
                walks_terms_iff, and_assoc]
          · simp [Term.transform?, TermShape.head]
          · simp [Term.transform?, TermShape.head]
  | operation symbol left right =>
      rcases concrete with (_ | _ | _) | _ <;>
        simp [Term.transform?, TermShape.head, TermShape.children, matchPart]

/-- An ordinary formula is matched part by part with formulas of its head. -/
theorem FormulaShape.succeeds_iff
    {shape : FormulaShape}
    (ordinary : shape.metaNode? = none)
    (concrete : Formula) :
    (shape.matchAgainst concrete).Succeeds before after ↔
      concrete.transform? = none ∧ shape.head = concrete.shape.head ∧
        Walks shape.children concrete.shape.children before after := by
  rw [FormulaShape.matchAgainst.eq_def]
  cases shape with
  | leaf kind symbol =>
      rcases concrete with (_ | _ | _ | _ | _ | _ | _) | _ <;> cases kind <;>
        simp_all [Formula.transform?, FormulaShape.head, FormulaShape.children,
          FormulaShape.metaNode?, FormulaLeaf.family?, and_assoc]
  | complexMeta => cases ordinary
  | relation | comparison | negation | binary =>
      rcases concrete with (_ | _ | _ | _ | _ | _ | _) | _ <;>
        simp [Formula.transform?, FormulaShape.head, FormulaShape.children,
          matchPart, walks_terms_iff, and_assoc]
  | quantified symbol quantifier boundVariable restriction scope =>
      cases concrete with
      | transformed => simp [Formula.transform?]
      | plain shape =>
          cases shape with
          | quantified _ _ _ restriction' _ =>
              cases restriction <;> cases restriction' <;>
                simp [Formula.transform?, FormulaShape.head, Restriction.head,
                  FormulaShape.children, FormulaShape.restrictionChildren,
                  Restriction.matchAgainst, matchPart, and_assoc]
              -- Where both hold something, only the order of the tests differs.
              all_goals
                intro symbols quantifiers
                constructor
                · rintro ⟨_, ⟨_, targets, relations, held⟩, scopes⟩
                  exact ⟨relations, _, targets, _, held, scopes⟩
                · rintro ⟨relations, _, targets, _, held, scopes⟩
                  exact ⟨_, ⟨_, targets, relations, held⟩, scopes⟩
          | _ => simp [FormulaShape.head]

/-- Meeting a metavariable binds it, once it has been entered. -/
theorem Metavariable.succeeds_meet_iff
    {metavariable : Metavariable}
    {value : Expression} :
    (metavariable.meet value).Succeeds before after ↔
      metavariable.Bound value (before.enter metavariable) after := by
  rw [meet, succeeds_bind]
  simp [succeeds_bind_iff]

namespace Expression

variable {pattern concrete : Expression} {metavariable : Metavariable}

/-- A node that is not a metavariable matches an expression with the same head
whose parts match. -/
theorem succeeds_iff_parts
    (plain : pattern.transform? = none)
    (ordinary : pattern.metaNode? = none) :
    (pattern.matchPart concrete).Succeeds before after ↔
      concrete.transform? = none ∧ pattern.head = concrete.head ∧
        Walks pattern.children concrete.children before after := by
  cases pattern with
  | formula p =>
      cases p with
      | transformed => cases plain
      | plain shape =>
          cases concrete with
          | formula c => exact FormulaShape.succeeds_iff ordinary c
          | term =>
              refine iff_of_false not_succeeds_throw fun ⟨_, heads, _⟩ => ?_
              cases isSentence_eq_of_head heads
  | term p =>
      cases p with
      | transformed => cases plain
      | plain shape =>
          cases concrete with
          | formula =>
              refine iff_of_false not_succeeds_throw fun ⟨_, heads, _⟩ => ?_
              cases isSentence_eq_of_head heads
          | term c => exact TermShape.succeeds_iff ordinary c

/-- What matches is of the same sort. -/
theorem isSentence_eq_of_succeeds
    (succeeds : (pattern.matchPart concrete).Succeeds before after) :
    pattern.isSentence = concrete.isSentence := by
  cases pattern <;> cases concrete
  · rfl
  · cases succeeds
  · cases succeeds
  · rfl

/-- A metavariable without parameters is met at once. -/
theorem matchPart_eq_meet
    (plain : pattern.transform? = none)
    (isMetavariable : pattern.metaNode? = some metavariable)
    (simple : pattern.isComplex = false)
    (sorts : pattern.isSentence = concrete.isSentence) :
    pattern.matchPart concrete = metavariable.meet concrete := by
  cases writes_of_metaNode? plain isMetavariable with
  | formulaLeaf symbol familyEq =>
      cases concrete with
      | term => cases sorts
      | formula =>
          simp [matchPart, Formula.matchAgainst, FormulaShape.matchAgainst,
            familyEq]
  | termLeaf symbol familyEq =>
      cases concrete with
      | formula => cases sorts
      | term =>
          simp [matchPart, Term.matchAgainst, TermShape.matchAgainst, familyEq]
  | complexFormula | complexTerm => cases simple

/-- A metavariable is met, after its parameters have been matched with those of the
concrete expression if that has the same form. -/
theorem matchPart_eq_meet_or
    (plain : pattern.transform? = none)
    (isMetavariable : pattern.metaNode? = some metavariable)
    (sorts : pattern.isSentence = concrete.isSentence) :
    pattern.matchPart concrete = metavariable.meet concrete ∨
      ∃ args, metavariable.params.length = args.length ∧
        pattern.matchPart concrete =
          Term.matchAll metavariable.params args >>= fun _ =>
            metavariable.meet concrete := by
  cases complex : pattern.isComplex with
  | false => exact .inl (matchPart_eq_meet plain isMetavariable complex sorts)
  | true =>
      cases writes_of_metaNode? plain isMetavariable with
      | @formulaLeaf kind => cases kind <;> cases complex
      | @termLeaf kind => cases kind <;> cases complex
      | complexFormula =>
          cases concrete with
          | term => cases sorts
          | formula =>
              rw [matchPart, Formula.matchAgainst, FormulaShape.matchAgainst.eq_def]
              dsimp only
              split
              · split
                · next args _ alike =>
                    rw [Bool.and_eq_true, decide_eq_true_eq] at alike
                    exact .inr ⟨args, alike.2.symm, rfl⟩
                · exact .inl rfl
              · exact .inl rfl
      | complexTerm =>
          cases concrete with
          | formula => cases sorts
          | term =>
              rw [matchPart, Term.matchAgainst, TermShape.matchAgainst.eq_def]
              dsimp only
              split
              · split
                · next args _ alike =>
                    rw [Bool.and_eq_true, decide_eq_true_eq] at alike
                    exact .inr ⟨args, alike.2.symm, rfl⟩
                · exact .inl rfl
              · exact .inl rfl

/-- A metavariable without parameters matches what it can be bound to. -/
theorem succeeds_iff_bound
    (plain : pattern.transform? = none)
    (isMetavariable : pattern.metaNode? = some metavariable)
    (simple : pattern.isComplex = false) :
    (pattern.matchPart concrete).Succeeds before after ↔
      pattern.isSentence = concrete.isSentence ∧
        metavariable.Bound concrete (before.enter metavariable) after := by
  constructor
  · intro succeeds
    have sorts := isSentence_eq_of_succeeds succeeds
    rw [matchPart_eq_meet plain isMetavariable simple sorts] at succeeds
    exact ⟨sorts, Metavariable.succeeds_meet_iff.mp succeeds⟩
  · rintro ⟨sorts, bound⟩
    rw [matchPart_eq_meet plain isMetavariable simple sorts]
    exact Metavariable.succeeds_meet_iff.mpr bound

/-- A metavariable that matches is bound, in whatever session its parameters have
left. -/
theorem exists_bound_of_succeeds
    (plain : pattern.transform? = none)
    (isMetavariable : pattern.metaNode? = some metavariable)
    (succeeds : (pattern.matchPart concrete).Succeeds before after) :
    pattern.isSentence = concrete.isSentence ∧
      ∃ middle, metavariable.Bound concrete middle after := by
  have sorts := isSentence_eq_of_succeeds succeeds
  refine ⟨sorts, ?_⟩
  rcases matchPart_eq_meet_or plain isMetavariable sorts with
    matchEq | ⟨args, -, matchEq⟩
  · rw [matchEq] at succeeds
    exact ⟨_, Metavariable.succeeds_meet_iff.mp succeeds⟩
  · rw [matchEq, succeeds_bind] at succeeds
    obtain ⟨middle, -, met⟩ := succeeds
    exact ⟨_, Metavariable.succeeds_meet_iff.mp met⟩

end Expression
end SymbolicLogic
