import SymbolicLogic.Proofs.Expression.Congruence
import SymbolicLogic.Proofs.Expression.Nodes

/-!
# Readings, node by node

A reading does one of three things at a node. A metavariable with a meaning of its
own sort becomes that meaning. Any other node without a pending substitution keeps
its head, and its parts are read. A node with a pending substitution is read without
it, and the substitution, both sides of it read, is attached again.
-/

namespace SymbolicLogic

namespace Expression

/-- The node is the second expression, or it is found in one of its parts or on one
of the sides of its pending substitution. -/
inductive IsWithin (node : Expression) : Expression -> Prop
  | whole : IsWithin node node
  | part
      {whole part : Expression}
      (member : part ∈ whole.children)
      (within : IsWithin node part) : IsWithin node whole
  | target
      {whole : Expression}
      {transform : Transform}
      (pending : whole.transform? = some transform)
      (within : IsWithin node (.term transform.target)) : IsWithin node whole
  | replacement
      {whole : Expression}
      {transform : Transform}
      (pending : whole.transform? = some transform)
      (within : IsWithin node (.term transform.replacement)) :
      IsWithin node whole

/-- Every node of the expression has the property, those of its substitutions
included. -/
def Throughout (holds : Expression -> Prop) (expression : Expression) : Prop :=
  ∀ node : Expression, node.IsWithin expression -> holds node

/-- Attach a substitution. It takes the place of one that is already there. -/
def withTransform (expression : Expression) (transform : Transform) : Expression :=
  match expression with
  | .formula f => .formula (f.withTransform transform)
  | .term t => .term (t.withTransform transform)

/-- Perform a substitution if no metavariable is in the way, or else attach
it. -/
def settle (carrier : Expression) (transform : Transform) : Expression :=
  match carrier with
  | .formula f => .formula (f.settle transform)
  | .term t => .term (t.settle transform)

variable {expression : Expression} {transform : Transform}

@[simp] theorem transform?_withTransform :
    (expression.withTransform transform).transform? = some transform := by
  cases expression <;> rfl

/-- Without its pending substitution a node has none. -/
@[simp] theorem transform?_withoutTransform :
    expression.withoutTransform.transform? = none := by
  cases expression <;> rfl

/-- A substitution that is put on a node takes the place of the one before. -/
@[simp] theorem withoutTransform_withTransform :
    (expression.withTransform transform).withoutTransform =
      expression.withoutTransform := by
  cases expression <;> rfl

@[simp] theorem children_withoutTransform :
    expression.withoutTransform.children = expression.children := by
  cases expression <;> rfl

@[simp] theorem isSentence_withoutTransform :
    expression.withoutTransform.isSentence = expression.isSentence := by
  cases expression <;> rfl

@[simp] theorem metaNode?_withoutTransform :
    expression.withoutTransform.metaNode? = expression.metaNode? := by
  cases expression <;> rfl

@[simp] theorem metaNode?_withTransform :
    (expression.withTransform transform).metaNode? = expression.metaNode? := by
  cases expression <;> rfl

/-- A node without a pending substitution is its own carrier. -/
theorem withoutTransform_of_plain (plain : expression.transform? = none) :
    expression.withoutTransform = expression := by
  match expression with
  | .formula (.plain _) | .term (.plain _) => rfl
  | .formula (.transformed ..) | .term (.transformed ..) => cases plain

/-- A node is its carrier with its pending substitution put on again. -/
theorem withTransform_withoutTransform
    (pending : expression.transform? = some transform) :
    expression.withoutTransform.withTransform transform = expression := by
  match expression with
  | .formula (.transformed ..) | .term (.transformed ..) =>
      cases pending
      rfl
  | .formula (.plain _) | .term (.plain _) => cases pending

/-- Being within is transitive, through substitutions as well as parts. -/
theorem IsWithin.trans
    {node middle whole : Expression}
    (within : node.IsWithin middle)
    (outer : middle.IsWithin whole) : node.IsWithin whole := by
  induction outer with
  | whole => exact within
  | part member _ inductionHypothesis => exact .part member inductionHypothesis
  | target pending _ inductionHypothesis => exact .target pending inductionHypothesis
  | replacement pending _ inductionHypothesis =>
      exact .replacement pending inductionHypothesis

namespace Throughout

variable {holds : Expression -> Prop} {child : Expression}

theorem whole (throughout : Throughout holds expression) : holds expression :=
  throughout expression .whole

/-- What holds throughout an expression holds throughout all that is within it. -/
theorem of_within
    {node : Expression}
    (throughout : expression.Throughout holds)
    (within : node.IsWithin expression) : node.Throughout holds :=
  fun _ inner => throughout _ (inner.trans within)

theorem part
    (throughout : Throughout holds expression)
    (member : child ∈ expression.children) : Throughout holds child :=
  fun node within => throughout node (.part member within)

theorem target
    (throughout : Throughout holds expression)
    (pending : expression.transform? = some transform) :
    Throughout holds (.term transform.target) :=
  fun node within => throughout node (.target pending within)

theorem replacement
    (throughout : Throughout holds expression)
    (pending : expression.transform? = some transform) :
    Throughout holds (.term transform.replacement) :=
  fun node within => throughout node (.replacement pending within)

/-- A property holds throughout a plain node if it holds there and throughout the parts. -/
theorem of_parts
    (plain : expression.transform? = none)
    (whole : holds expression)
    (parts : ∀ part ∈ expression.children, Throughout holds part) :
    Throughout holds expression := by
  intro node within
  cases within with
  | whole => exact whole
  | part member within => exact parts _ member node within
  | target pending => rw [plain] at pending; cases pending
  | replacement pending => rw [plain] at pending; cases pending

theorem withoutTransform
    (throughout : Throughout holds expression)
    (whole : holds expression.withoutTransform) :
    Throughout holds expression.withoutTransform := by
  refine of_parts transform?_withoutTransform whole fun part member => ?_
  rw [children_withoutTransform] at member
  exact throughout.part member

/-- A property holds throughout a node with a substitution if it holds there and
throughout the carrier and both sides. -/
theorem of_transformed
    (pending : expression.transform? = some transform)
    (whole : holds expression)
    (carrier : Throughout holds expression.withoutTransform)
    (target : Throughout holds (.term transform.target))
    (replacement : Throughout holds (.term transform.replacement)) :
    Throughout holds expression := by
  intro node within
  cases within with
  | whole => exact whole
  | part member within =>
      rw [← children_withoutTransform] at member
      exact carrier.part member node within
  | target pending' within =>
      cases pending.symm.trans pending'
      exact target node within
  | replacement pending' within =>
      cases pending.symm.trans pending'
      exact replacement node within

end Throughout

/-- The metavariable with other parameters, if it is written with any. -/
def withParams (expression : Expression) (params : List Term) : Expression :=
  match expression with
  | .formula (.plain (.complexMeta symbol _ brackets)) =>
      .formula (.plain (.complexMeta symbol params brackets))
  | .term (.plain (.apply .complexMeta symbol _ brackets)) =>
      .term (.plain (.apply .complexMeta symbol params brackets))
  | expression => expression

namespace Writes

variable {metavariable : Metavariable} {params : List Term}

/-- A metavariable is written at a node without a pending substitution. -/
theorem transform?_eq (writes : expression.Writes metavariable) :
    expression.transform? = none := by
  cases writes <;> rfl

theorem metaNode?_eq (writes : expression.Writes metavariable) :
    expression.metaNode? = some metavariable := by
  cases writes with
  | formulaLeaf symbol familyEq | termLeaf symbol familyEq =>
      exact congrArg (Option.map _) familyEq
  | complexFormula | complexTerm => rfl

/-- The parts of a metavariable are its parameters. -/
theorem children_eq (writes : expression.Writes metavariable) :
    expression.children = metavariable.params.map term := by
  cases writes <;> rfl

/-- Other parameters leave the head of a metavariable as it is. -/
theorem head_withParams (writes : expression.Writes metavariable) :
    (expression.withParams params).head = expression.head := by
  cases writes <;> rfl

/-- With other parameters it is written in the same way, unless there are none. -/
theorem withParams
    (writes : expression.Writes metavariable)
    (lengths : params.length = metavariable.params.length) :
    (expression.withParams params).Writes { metavariable with params } := by
  cases writes with
  | formulaLeaf symbol familyEq =>
      cases List.eq_nil_of_length_eq_zero lengths
      exact .formulaLeaf symbol familyEq
  | termLeaf symbol familyEq =>
      cases List.eq_nil_of_length_eq_zero lengths
      exact .termLeaf symbol familyEq
  | complexFormula symbol _ brackets => exact .complexFormula symbol params brackets
  | complexTerm symbol _ brackets => exact .complexTerm symbol params brackets

theorem withParams_withParams
    {others : List Term}
    (writes : expression.Writes metavariable) :
    (expression.withParams params).withParams others =
      expression.withParams others := by
  cases writes <;> rfl

end Writes

end Expression

namespace Reading

/-- What a metavariable stands for. -/
def meaningOf
    (reading : Reading)
    (metavariable : Metavariable) : Option Expression :=
  reading.meaning metavariable.family metavariable.symbol metavariable.params
    (Term.readAllBy metavariable.params reading)

/-- Attach a substitution to a carrier of either sort. -/
def attach
    (reading : Reading)
    (carrier : Expression)
    (transform : Transform) : Expression :=
  match carrier with
  | .formula f => .formula (reading.attachFormula f transform)
  | .term t => .term (reading.attachTerm t transform)

/-- When substitutions are carried out, they are settled on what carries them. -/
@[simp] theorem attach_carryOut (carrier : Expression) (transform : Transform) :
    carryOut.attach carrier transform = carrier.settle transform := by
  cases carrier <;> rfl

/-- The expression is no metavariable with a meaning of its own sort. -/
def Keeps (reading : Reading) (expression : Expression) : Prop :=
  ∀ metavariable value, expression.metaNode? = some metavariable ->
    reading.meaningOf metavariable = some value ->
    value.isSentence ≠ expression.isSentence

namespace Keeps

/-- Carrying out gives no metavariable a meaning. -/
theorem carryOut (expression : Expression) :
    Reading.carryOut.Keeps expression :=
  nofun

variable {reading : Reading} {metavariable : Metavariable}

/-- A metavariable that is kept where a formula stands has no meaning that is a formula. -/
theorem bind_formula?
    {formula : Formula}
    (keeps : reading.Keeps (.formula formula))
    (isMetavariable :
      (Expression.formula formula).metaNode? = some metavariable) :
    (reading.meaningOf metavariable).bind Expression.formula? = none := by
  rw [Option.bind_eq_none_iff]
  intro value meaning
  cases value with
  | formula => exact (keeps _ _ isMetavariable meaning rfl).elim
  | term => rfl

/-- A metavariable that is kept where a term stands has no meaning that is a term. -/
theorem bind_term?
    {term : Term}
    (keeps : reading.Keeps (.term term))
    (isMetavariable : (Expression.term term).metaNode? = some metavariable) :
    (reading.meaningOf metavariable).bind Expression.term? = none := by
  rw [Option.bind_eq_none_iff]
  intro value meaning
  cases value with
  | formula => rfl
  | term => exact (keeps _ _ isMetavariable meaning rfl).elim

end Keeps
end Reading

namespace Expression

variable {reading : Reading} {expression : Expression}

/-- Formulas are read as formulas and terms as terms. -/
@[simp] theorem isSentence_readBy (reading : Reading) (expression : Expression) :
    (expression.readBy reading).isSentence = expression.isSentence := by
  cases expression <;> rfl

/-- A node with a pending substitution is read without it. -/
theorem readBy_of_pending
    {transform : Transform}
    (pending : expression.transform? = some transform) :
    expression.readBy reading =
      reading.attach (expression.withoutTransform.readBy reading)
        (transform.readBy reading) := by
  match expression with
  | .formula (.transformed ..) | .term (.transformed ..) =>
      cases pending
      rfl
  | .formula (.plain _) | .term (.plain _) => cases pending

/-- A node without a pending substitution is a metavariable that is read as its
meaning, or it is none with a meaning of its own sort. -/
theorem meaning_or_keeps
    (reading : Reading)
    (plain : expression.transform? = none) :
    (∃ metavariable, expression.metaNode? = some metavariable ∧
      reading.meaningOf metavariable = some (expression.readBy reading)) ∨
      reading.Keeps expression := by
  refine or_iff_not_imp_right.mpr fun keeps => ?_
  simp only [Reading.Keeps, not_forall, not_not] at keeps
  obtain ⟨metavariable, value, isMetavariable, meaning, sort⟩ := keeps
  rw [readBy_of_meaning _ plain isMetavariable meaning sort]
  exact ⟨metavariable, isMetavariable, meaning⟩

/-- A metavariable without a meaning of its own sort stays, and its parameters are
read. -/
theorem Writes.readBy_of_keeps
    {metavariable : Metavariable}
    (writes : expression.Writes metavariable)
    (keeps : reading.Keeps expression) :
    expression.readBy reading =
      expression.withParams (Term.readAllBy metavariable.params reading) := by
  have isMetavariable := writes.metaNode?_eq
  cases writes with
  | formulaLeaf symbol familyEq =>
      have other := keeps.bind_formula? isMetavariable
      simp only [Reading.meaningOf, Term.readAllBy] at other
      simp [readBy, Formula.readBy, FormulaShape.readBy, familyEq, other,
        Formula.leaf, Expression.withParams]
  | termLeaf symbol familyEq =>
      have other := keeps.bind_term? isMetavariable
      simp only [Reading.meaningOf, Term.readAllBy] at other
      simp [readBy, Term.readBy, TermShape.readBy, familyEq, other, Term.leaf,
        Expression.withParams]
  | complexFormula =>
      have other := keeps.bind_formula? isMetavariable
      simp only [Reading.meaningOf] at other
      simp [readBy, Formula.readBy, FormulaShape.readBy, other,
        Expression.withParams]
  | complexTerm =>
      have other := keeps.bind_term? isMetavariable
      simp only [Reading.meaningOf] at other
      simp [readBy, Term.readBy, TermShape.readBy, other, Expression.withParams]

/-- A metavariable that is kept is written with its parameters read. -/
theorem Writes.writes_readBy
    {metavariable : Metavariable}
    (writes : expression.Writes metavariable)
    (keeps : reading.Keeps expression) :
    (expression.readBy reading).Writes
      { metavariable with
        params := Term.readAllBy metavariable.params reading } := by
  rw [writes.readBy_of_keeps keeps]
  exact writes.withParams (by simp [Term.readAllBy_eq_map])

/-- Only a value brings in a pending substitution. -/
theorem transform?_readBy_of_keeps
    (plain : expression.transform? = none)
    (keeps : reading.Keeps expression) :
    (expression.readBy reading).transform? = none := by
  cases isMetavariable : expression.metaNode? with
  | none => exact (readBy_parts reading plain isMetavariable).1
  | some =>
      have writes := writes_of_metaNode? plain isMetavariable
      exact (writes.writes_readBy keeps).transform?_eq

/-- A plain node that is kept is read with its head. -/
theorem head_readBy_of_keeps
    (plain : expression.transform? = none)
    (keeps : reading.Keeps expression) :
    (expression.readBy reading).head = expression.head := by
  cases isMetavariable : expression.metaNode? with
  | none => exact (readBy_parts reading plain isMetavariable).2.1
  | some =>
      have writes := writes_of_metaNode? plain isMetavariable
      rw [writes.readBy_of_keeps keeps, writes.head_withParams]

/-- A plain node that is kept is read with its parts, one by one. -/
theorem children_readBy_of_keeps
    (plain : expression.transform? = none)
    (keeps : reading.Keeps expression) :
    (expression.readBy reading).children =
      expression.children.map fun part => part.readBy reading := by
  cases isMetavariable : expression.metaNode? with
  | none => exact (readBy_parts reading plain isMetavariable).2.2
  | some =>
      have writes := writes_of_metaNode? plain isMetavariable
      rw [(writes.writes_readBy keeps).children_eq, writes.children_eq,
        Term.readAllBy_eq_map, List.map_map, List.map_map]
      rfl

/-- An expression that is not schematic is no metavariable, and its parts are not
schematic either. -/
theorem ground_parts
    (plain : expression.transform? = none)
    (ground : expression.isSchematic = false) :
    expression.metaNode? = none ∧
      ∀ part ∈ expression.children, part.isSchematic = false := by
  match expression with
  | .formula (.plain shape) =>
      cases shape with
      | leaf kind =>
          cases kind <;> cases ground
          exact ⟨rfl, List.forall_mem_nil _⟩
      | relation symbol args =>
          rw [isSchematic, Formula.isSchematic, FormulaShape.isSchematic,
            Term.anySchematic_eq_any, List.any_eq_false] at ground
          simpa [metaNode?, FormulaShape.metaNode?, children,
            FormulaShape.children, isSchematic] using ground
      | complexMeta => cases ground
      | comparison | negation | binary =>
          simpa [metaNode?, FormulaShape.metaNode?, children,
            FormulaShape.children, isSchematic, Formula.isSchematic,
            FormulaShape.isSchematic] using ground
      | quantified _ _ _ restriction =>
          cases restriction <;>
            simpa [metaNode?, FormulaShape.metaNode?, children,
              FormulaShape.children, FormulaShape.restrictionChildren,
              isSchematic, Formula.isSchematic, FormulaShape.isSchematic,
              Restriction.isSchematic, and_assoc] using ground
  | .term (.plain shape) =>
      cases shape with
      | leaf kind =>
          cases kind <;> cases ground <;> exact ⟨rfl, List.forall_mem_nil _⟩
      | apply head symbol args =>
          cases head with
          | complexMeta => cases ground
          | function =>
              rw [isSchematic, Term.isSchematic, TermShape.isSchematic,
                Term.anySchematic_eq_any, Bool.or_eq_false_iff,
                List.any_eq_false] at ground
              simpa [metaNode?, TermShape.metaNode?, children,
                TermShape.children, isSchematic] using ground.2
      | operation =>
          simpa [metaNode?, TermShape.metaNode?, children, TermShape.children,
            isSchematic, Term.isSchematic, TermShape.isSchematic] using ground

/-- The carrier and both sides of a ground expression are ground. -/
theorem ground_of_transformed
    {transform : Transform}
    (pending : expression.transform? = some transform)
    (ground : expression.isSchematic = false) :
    expression.withoutTransform.isSchematic = false ∧
      (term transform.target).isSchematic = false ∧
      (term transform.replacement).isSchematic = false := by
  match expression with
  | .formula (.transformed ..) =>
      cases pending
      simpa [isSchematic, Formula.isSchematic, Transform.isSchematic,
        withoutTransform, Formula.withoutTransform, Formula.shape] using ground
  | .term (.transformed ..) =>
      cases pending
      simpa [isSchematic, Term.isSchematic, withoutTransform,
        Term.withoutTransform, Term.shape, and_assoc] using ground
  | .formula (.plain _) | .term (.plain _) => cases pending

/-- Without metavariables in the parts there is none in the whole. -/
theorem ground_of_parts
    (plain : expression.transform? = none)
    (ordinary : expression.kind.isMetavariable = false)
    (parts : ∀ part ∈ expression.children, part.isSchematic = false) :
    expression.isSchematic = false := by
  match expression with
  | .formula (.plain shape) =>
      cases shape with
      | leaf kind => cases kind <;> cases ordinary; rfl
      | relation =>
          simpa [isSchematic, Formula.isSchematic, FormulaShape.isSchematic,
            Term.anySchematic_eq_any, children, FormulaShape.children] using parts
      | complexMeta => cases ordinary
      | comparison | negation | binary =>
          simpa [children, FormulaShape.children, isSchematic, Formula.isSchematic,
            FormulaShape.isSchematic] using parts
      | quantified _ _ _ restriction =>
          cases restriction <;>
            simpa [children, FormulaShape.children, FormulaShape.restrictionChildren,
              isSchematic, Formula.isSchematic, FormulaShape.isSchematic,
              Restriction.isSchematic, and_assoc] using parts
  | .term (.plain shape) =>
      cases shape with
      | leaf kind => cases kind <;> cases ordinary <;> rfl
      | apply head =>
          cases head with
          | complexMeta => cases ordinary
          | function =>
              simpa [isSchematic, Term.isSchematic, TermShape.isSchematic,
                Term.anySchematic_eq_any, children, TermShape.children] using parts
      | operation =>
          simpa [children, TermShape.children, isSchematic, Term.isSchematic,
            TermShape.isSchematic] using parts
  | .formula (.transformed ..) | .term (.transformed ..) => cases plain

/-- There is no metavariable within a ground expression. -/
theorem throughout_of_ground
    (ground : expression.isSchematic = false) :
    expression.Throughout fun node => node.metaNode? = none := by
  induction expression using nodeInduction with
  | plain expression plain inductionHypothesis =>
      obtain ⟨ordinary, parts⟩ := ground_parts plain ground
      exact .of_parts plain ordinary fun part member =>
        inductionHypothesis part member (parts part member)
  | transformed expression transform pending carrier target replacement =>
      obtain ⟨groundCarrier, groundTarget, groundReplacement⟩ :=
        ground_of_transformed pending ground
      have carrier := carrier groundCarrier
      refine .of_transformed pending ?_ carrier (target groundTarget)
        (replacement groundReplacement)
      rw [← metaNode?_withoutTransform]
      exact carrier.whole

end Expression
end SymbolicLogic
