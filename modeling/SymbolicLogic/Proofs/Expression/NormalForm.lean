import SymbolicLogic.Proofs.Expression.Readings
import SymbolicLogic.Proofs.Outcome
import SymbolicLogic.Session.Instantiation

/-!
# Carrying out reaches a normal form

Carrying out performs a pending substitution if neither its carrier nor its two sides
hold a metavariable. What is left are substitutions that meet a metavariable, and in an
expression without others there is nothing to carry out. An expression is concrete if
it has neither metavariables nor pending substitutions. Substitution keeps it so, and
this is why a substitution that is performed brings no other one back.
-/

namespace SymbolicLogic

open Session

namespace Expression

variable {expression : Expression} {transform : Transform} {target replacement : Term}
  {reading : Reading}

/-- Without metavariables a substitution is performed. -/
theorem settle_of_ground
    (ground : expression.isSchematic = false)
    (groundTransform : transform.isSchematic = false) :
    expression.settle transform =
      expression.substitute transform.target transform.replacement := by
  cases expression with
  | formula f =>
      have free : f.isSchematic = false := ground
      simp [settle, Formula.settle, substitute, free, groundTransform]
  | term t =>
      have free : t.isSchematic = false := ground
      simp [settle, Term.settle, substitute, free, groundTransform]

/-- With a metavariable in the way it is attached. -/
theorem settle_of_schematic
    (schematic : expression.isSchematic = true ∨ transform.isSchematic = true) :
    expression.settle transform = expression.withTransform transform := by
  cases expression with
  | formula f =>
      have held : (f.isSchematic || transform.isSchematic) = true :=
        Bool.or_eq_true_iff.mpr schematic
      simp [settle, Formula.settle, withTransform, held]
  | term t =>
      have held : (t.isSchematic || transform.isSchematic) = true :=
        Bool.or_eq_true_iff.mpr schematic
      simp [settle, Term.settle, withTransform, held]

/-- A pending substitution is settled once its carrier and both its sides are carried
out. -/
theorem carryOut_eq_settle (pending : expression.transform? = some transform) :
    expression.carryOut =
      expression.withoutTransform.carryOut.settle (transform.readBy .carryOut) := by
  rw [carryOut, readBy_of_pending pending, Reading.attach_carryOut, carryOut]

/-- A node without a pending substitution is replaced as a whole, or it keeps its head
and each of its parts is kept or substituted in. -/
theorem substitute_parts (plain : expression.transform? = none) :
    expression.substitute target replacement = .term replacement ∨
      (expression.substitute target replacement).transform? = none ∧
        (expression.substitute target replacement).head = expression.head ∧
        List.Forall₂
          (fun child part => part = child ∨ part = child.substitute target replacement)
          expression.children (expression.substitute target replacement).children := by
  match expression with
  | .formula (.plain shape) =>
      refine .inr ⟨rfl, ?_, ?_⟩
      · cases shape with
        | quantified _ _ _ restriction => cases restriction <;> rfl
        | _ => rfl
      · cases shape with
        | quantified _ _ boundVariable restriction =>
            cases captured : boundVariable.same target <;> cases restriction <;>
              simp [substitute, Formula.substitute, FormulaShape.substitute,
                Restriction.substitute, children, FormulaShape.children,
                FormulaShape.restrictionChildren, captured]
        | _ =>
            simp [substitute, Formula.substitute, FormulaShape.substitute, children,
              FormulaShape.children, Term.substituteAll_eq_map, List.forall₂_same]
  | .term (.plain shape) =>
      by_cases same : (Term.plain shape).same target = true
      · exact .inl (by simp [substitute, Term.substitute, same])
      · refine .inr ?_
        cases shape <;>
          simp [substitute, Term.substitute, TermShape.substitute, same, transform?,
            Term.transform?, head, TermShape.head, children, TermShape.children,
            Term.substituteAll_eq_map, List.forall₂_same]
  | .formula (.transformed ..) | .term (.transformed ..) => cases plain

/-- The expression has no metavariable and no pending substitution. -/
def IsConcrete (expression : Expression) : Prop :=
  expression.Everywhere fun node =>
    node.transform? = none ∧ node.kind.isMetavariable = false

/-- The kind of a node tells whether it is a metavariable, as its head does. -/
theorem isMetavariable_kind (expression : Expression) :
    expression.kind.isMetavariable = expression.head.isMetavariable := by
  cases expression with
  | formula f =>
      rw [kind, head]
      cases f.shape with
      | leaf kind => cases kind <;> rfl
      | binary _ connective => cases connective <;> rfl
      | quantified _ quantifier _ restriction =>
          cases quantifier <;> cases restriction <;> rfl
      | _ => rfl
  | term t =>
      rw [kind, head]
      cases t.shape with
      | leaf kind => cases kind <;> rfl
      | apply head => cases head <;> rfl
      | operation => rfl

theorem isMetavariable_kind_of_ordinary (ordinary : expression.metaNode? = none) :
    expression.kind.isMetavariable = false := by
  rw [isMetavariable_kind, ← isSome_metaNode?, ordinary]
  rfl

namespace IsConcrete

theorem isBare (concrete : expression.IsConcrete) : expression.IsBare :=
  fun node occurs => (concrete node occurs).1

/-- A concrete expression is not schematic. -/
theorem isSchematic_eq_false (concrete : expression.IsConcrete) :
    expression.isSchematic = false := by
  induction expression using nodeInduction with
  | plain expression plain inductionHypothesis =>
      exact ground_of_parts plain concrete.whole.2 fun part member =>
        inductionHypothesis part member (concrete.part member)
  | transformed expression transform pending =>
      rw [concrete.whole.1] at pending
      cases pending

/-- Whatever is replaced, a concrete term in its place leaves a concrete expression. -/
theorem substitute
    (concrete : expression.IsConcrete)
    (concreteTerm : (term replacement).IsConcrete) :
    (expression.substitute target replacement).IsConcrete := by
  induction expression using nodeInduction with
  | plain expression plain inductionHypothesis =>
      rcases substitute_parts plain with replaced | ⟨plain', heads, parts⟩
      · rwa [replaced]
      · refine .of_parts ⟨plain', ?_⟩ fun part member => ?_
        · rw [isMetavariable_kind, heads, ← isMetavariable_kind]
          exact concrete.whole.2
        · obtain ⟨child, placed, rfl | rfl⟩ := exists_of_mem_of_forall₂ parts member
          · exact concrete.part placed
          · exact inductionHypothesis child placed (concrete.part placed)
  | transformed expression transform pending =>
      rw [concrete.whole.1] at pending
      cases pending

end IsConcrete

/-- A reading that settles substitutions, and in which every metavariable has a concrete
meaning of its sort, leaves a concrete expression. -/
theorem isConcrete_readBy
    (settles : ∀ carrier transform,
      reading.attach carrier transform = carrier.settle transform)
    (meanings : expression.Throughout fun node => ∀ metavariable,
      node.metaNode? = some metavariable ->
        ∃ value, reading.meaningOf metavariable = some value ∧
          value.isSentence = node.isSentence ∧ value.IsConcrete) :
    (expression.readBy reading).IsConcrete := by
  induction expression using nodeInduction with
  | plain expression plain inductionHypothesis =>
      cases isMetavariable : expression.metaNode? with
      | some metavariable =>
          obtain ⟨value, meaning, sort, concrete⟩ :=
            meanings.whole metavariable isMetavariable
          rwa [readBy_of_meaning reading plain isMetavariable meaning sort]
      | none =>
          obtain ⟨plain', heads, parts⟩ := readBy_parts reading plain isMetavariable
          have ordinary := metaNode?_eq_none_of_head heads.symm isMetavariable
          refine .of_parts ⟨plain', isMetavariable_kind_of_ordinary ordinary⟩ ?_
          rw [parts]
          exact List.forall_mem_map.mpr fun part member =>
            inductionHypothesis part member (meanings.part member)
  | transformed expression transform pending carrier target replacement =>
      have carrier := carrier (meanings.withoutTransform (by simpa using meanings.whole))
      have target := target (meanings.target pending)
      have replacement := replacement (meanings.replacement pending)
      have ground : (transform.readBy reading).isSchematic = false :=
        Bool.or_eq_false_iff.mpr
          ⟨target.isSchematic_eq_false, replacement.isSchematic_eq_false⟩
      rw [readBy_of_pending pending, settles,
        settle_of_ground carrier.isSchematic_eq_false ground]
      exact carrier.substitute replacement

/-- Without metavariables everything is carried out. -/
theorem isConcrete_carryOut (ground : expression.isSchematic = false) :
    expression.carryOut.IsConcrete := by
  refine isConcrete_readBy Reading.attach_carryOut
    fun node within metavariable isMetavariable => ?_
  rw [throughout_of_ground ground node within] at isMetavariable
  cases isMetavariable

/-- Every pending substitution has a metavariable in its carrier or on one of its
sides. -/
def IsNormal (expression : Expression) : Prop :=
  expression.Throughout fun node => ∀ transform, node.transform? = some transform ->
    node.withoutTransform.isSchematic = true ∨ transform.isSchematic = true

/-- Where nothing is pending, nothing is left to carry out. -/
theorem IsBare.isNormal (bare : expression.IsBare) : expression.IsNormal := by
  induction expression using nodeInduction with
  | plain expression plain inductionHypothesis =>
      refine .of_parts plain ?_ fun part member =>
        inductionHypothesis part member (bare.part member)
      rw [plain]
      nofun
  | transformed expression transform pending =>
      rw [bare.whole] at pending
      cases pending

namespace IsNormal

/-- The carrier of a normal expression is normal. -/
theorem withoutTransform (normal : expression.IsNormal) :
    expression.withoutTransform.IsNormal := by
  refine Throughout.withoutTransform normal ?_
  rw [transform?_withoutTransform]
  nofun

/-- A substitution that meets a metavariable may be attached. -/
theorem withTransform
    (normal : expression.IsNormal)
    (plain : expression.transform? = none)
    (target : (term transform.target).IsNormal)
    (replacement : (term transform.replacement).IsNormal)
    (schematic : expression.isSchematic = true ∨ transform.isSchematic = true) :
    (expression.withTransform transform).IsNormal := by
  refine .of_transformed transform?_withTransform ?_ ?_ target replacement
  · rw [transform?_withTransform, withoutTransform_withTransform,
      withoutTransform_of_plain plain]
    rintro _ ⟨⟩
    exact schematic
  · rw [withoutTransform_withTransform, withoutTransform_of_plain plain]
    exact normal

/-- Without metavariables no substitution is left. -/
theorem isConcrete
    (normal : expression.IsNormal)
    (ground : expression.isSchematic = false) : expression.IsConcrete := by
  induction expression using nodeInduction with
  | plain expression plain inductionHypothesis =>
      obtain ⟨ordinary, parts⟩ := ground_parts plain ground
      exact .of_parts ⟨plain, isMetavariable_kind_of_ordinary ordinary⟩
        fun part member =>
          inductionHypothesis part member (Throughout.part normal member)
            (parts part member)
  | transformed expression transform pending =>
      obtain ⟨carrier, target, replacement⟩ := ground_of_transformed pending ground
      have sides : transform.isSchematic = false :=
        Bool.or_eq_false_iff.mpr ⟨target, replacement⟩
      simpa [carrier, sides] using Throughout.whole normal transform pending

end IsNormal

/-- What is carried out is in normal form. -/
theorem isNormal_carryOut (expression : Expression) : expression.carryOut.IsNormal := by
  induction expression using nodeInduction with
  | plain expression plain inductionHypothesis =>
      have keeps := Reading.Keeps.carryOut expression
      have plain' : expression.carryOut.transform? = none :=
        transform?_readBy_of_keeps plain keeps
      refine .of_parts plain' ?_ ?_
      · rw [plain']
        nofun
      · rw [carryOut, children_readBy_of_keeps plain keeps]
        exact List.forall_mem_map.mpr inductionHypothesis
  | transformed expression transform pending carrier target replacement =>
      have plain : expression.withoutTransform.carryOut.transform? = none :=
        transform?_readBy_of_keeps transform?_withoutTransform (.carryOut _)
      rw [carryOut_eq_settle pending]
      by_cases schematic : expression.withoutTransform.carryOut.isSchematic = true ∨
        (transform.readBy .carryOut).isSchematic = true
      · rw [settle_of_schematic schematic]
        exact carrier.withTransform plain target replacement schematic
      · simp only [not_or, Bool.not_eq_true] at schematic
        obtain ⟨ground, sides⟩ := schematic
        have concreteTerm := replacement.isConcrete (Bool.or_eq_false_iff.mp sides).2
        rw [settle_of_ground ground sides]
        exact ((carrier.isConcrete ground).substitute concreteTerm).isBare.isNormal

/-- A node whose parts are read as themselves is so too, unless it is a metavariable with
a meaning. -/
theorem readBy_eq_self
    (plain : expression.transform? = none)
    (keeps : reading.Keeps expression)
    (parts : ∀ part ∈ expression.children, part.readBy reading = part) :
    expression.readBy reading = expression := by
  have all {terms : List Term}
      (read : ∀ part ∈ terms.map term, part.readBy reading = part) :
      Term.readAllBy terms reading = terms := by
    rw [Term.readAllBy_eq_map]
    refine (List.map_congr_left fun part member => ?_).trans (List.map_id terms)
    exact term.inj (read _ (List.mem_map_of_mem member))
  cases isMetavariable : expression.metaNode? with
  | some metavariable =>
      have writes := writes_of_metaNode? plain isMetavariable
      rw [writes.children_eq] at parts
      rw [writes.readBy_of_keeps keeps, all parts]
      cases writes <;> rfl
  | none =>
      match expression with
      | .formula (.plain shape) =>
          cases shape with
          | leaf kind => cases kind <;> cases isMetavariable; rfl
          | relation symbol args =>
              simp [readBy, Formula.readBy, FormulaShape.readBy, all parts]
          | complexMeta => cases isMetavariable
          | comparison | negation | binary =>
              simpa [children, FormulaShape.children, readBy, Formula.readBy,
                FormulaShape.readBy] using parts
          | quantified _ _ _ restriction =>
              cases restriction <;>
                simpa [children, FormulaShape.children,
                  FormulaShape.restrictionChildren, readBy, Formula.readBy,
                  FormulaShape.readBy, Restriction.readBy] using parts
      | .term (.plain shape) =>
          cases shape with
          | leaf kind => cases kind <;> cases isMetavariable <;> rfl
          | apply head symbol args =>
              cases head with
              | complexMeta => cases isMetavariable
              | function =>
                  have args : Term.readAllBy args reading = args := all parts
                  simp [readBy, Term.readBy, TermShape.readBy, args]
          | operation =>
              simpa [children, TermShape.children, readBy, Term.readBy,
                TermShape.readBy] using parts

/-- In normal form there is nothing to carry out. -/
theorem IsNormal.carryOut_eq_self (normal : expression.IsNormal) :
    expression.carryOut = expression := by
  induction expression using nodeInduction with
  | plain expression plain inductionHypothesis =>
      exact readBy_eq_self plain (.carryOut expression) fun part member =>
        inductionHypothesis part member (Throughout.part normal member)
  | transformed expression transform pending carrier target replacement =>
      have target := term.inj (target (Throughout.target normal pending))
      have replacement := term.inj (replacement (Throughout.replacement normal pending))
      have sides : transform.readBy .carryOut = transform := by
        rw [Transform.readBy, target, replacement]
      have schematic := Throughout.whole normal transform pending
      calc
        expression.carryOut
        _ = expression.withoutTransform.carryOut.settle (transform.readBy .carryOut) :=
          carryOut_eq_settle pending
        _ = expression.withoutTransform.settle transform := by
          rw [carrier normal.withoutTransform, sides]
        _ = expression.withoutTransform.withTransform transform :=
          settle_of_schematic schematic
        _ = expression := withTransform_withoutTransform pending

/-- Where nothing is pending, carrying out changes nothing. -/
theorem IsBare.carryOut_eq_self (bare : expression.IsBare) :
    expression.carryOut = expression :=
  bare.isNormal.carryOut_eq_self

end Expression

namespace Session

/-- What carrying out leaves is in normal form: every substitution that is still pending,
at any depth, meets a metavariable, and carrying out once more changes nothing. An
expression without substitutions is left as it is. -/
theorem resolveFormula_normalizes (formula : Formula) :
    let carried := empty.resolveFormula formula
    empty.resolveFormula carried = carried ∧
      (Expression.formula carried).IsNormal ∧
      ((Expression.formula formula).IsBare -> carried = formula) := by
  intro carried
  have normal : (Expression.formula carried).IsNormal :=
    Expression.isNormal_carryOut (.formula formula)
  exact ⟨Expression.formula.inj normal.carryOut_eq_self, normal,
    fun bare => Expression.formula.inj bare.carryOut_eq_self⟩

/-- `A ∧ Fx` is left as it is. In `A[a/x] ∧ Fx[a/x]` the second substitution is carried
out, while the first one waits for `A`. -/
theorem resolveFormula_normalizes_conjunction :
    let x : Term := .leaf .objectVariable ⟨"x", .objectVariable⟩
    let a : Term := .leaf .constant ⟨"a", .constant⟩
    let applied (term : Term) : Formula := .plain (.relation ⟨"F", .relation⟩ [term])
    let schema : Formula := .leaf .formulaMeta ⟨"A", .formulaMeta⟩
    let conjunction (left right : Formula) : Formula :=
      .plain (.binary ⟨"∧", .connective⟩ .conjunction left right none)
    let bare := conjunction schema (applied x)
    let substituted := conjunction (schema.withTransform ⟨x, a, false⟩)
      ((applied x).withTransform ⟨x, a, false⟩)
    let carried := conjunction (schema.withTransform ⟨x, a, false⟩) (applied a)
    ((Expression.formula bare).IsBare ∧ empty.resolveFormula bare = bare) ∧
      empty.resolveFormula substituted = carried ∧
      empty.resolveFormula carried = carried ∧
      (Expression.formula carried).IsNormal := by
  intro x a applied schema conjunction bare substituted carried
  have isBare : (Expression.formula bare).IsBare := by
    refine .of_parts rfl (List.forall_mem_cons.mpr ⟨.of_parts rfl nofun, ?_⟩)
    exact List.forall_mem_singleton.mpr
      (.of_parts rfl (List.forall_mem_singleton.mpr (.of_parts rfl nofun)))
  obtain ⟨-, -, kept⟩ := resolveFormula_normalizes bare
  obtain ⟨again, normal, -⟩ := resolveFormula_normalizes substituted
  exact ⟨⟨isBare, kept isBare⟩, rfl, again, normal⟩

end Session
end SymbolicLogic
