import Mathlib.Data.List.Forall2
import SymbolicLogic.Expression.Kind
import SymbolicLogic.Proofs.Expression.Sameness
import SymbolicLogic.Session.Reading

/-!
# Nodes of expressions

An expression is a tree of nodes. What a node is apart from its parts is its head:
the kind of node and the symbols it is written with. Expressions without pending
substitutions are the same exactly if they have the same head and the same parts,
and a reading keeps the head of every node that is not a metavariable and reads
its parts.
-/

namespace SymbolicLogic

/-! ## Heads -/

/-- What a restriction is apart from the bound or the formula in it. -/
inductive RestrictionHead
  | unrestricted
  | bounded (relation : String)
  | restricted (divider : String)
  deriving DecidableEq

/-- What a node is apart from its parts. -/
inductive NodeHead
  | termLeaf (kind : TermLeaf) (symbol : String)
  | application (head : TermHead) (symbol : String)
  | operation (symbol : String)
  | formulaLeaf (kind : FormulaLeaf) (symbol : String)
  | relation (symbol : String)
  | comparison (symbol : String)
  | complexMeta (symbol : String)
  | negation (symbol : String)
  | binary (symbol : String) (connective : Connective)
  | quantified
      (symbol : String)
      (quantifier : Quantifier)
      (restriction : RestrictionHead)
  deriving DecidableEq

def TermShape.head : TermShape -> NodeHead
  | .leaf kind symbol => .termLeaf kind symbol.text
  | .apply head symbol _ _ => .application head symbol.text
  | .operation symbol _ _ _ => .operation symbol.text

def Restriction.head : Restriction -> RestrictionHead
  | .unrestricted => .unrestricted
  | .bounded relation _ _ => .bounded relation.text
  | .restricted divider _ _ => .restricted divider.text

def FormulaShape.head : FormulaShape -> NodeHead
  | .leaf kind symbol => .formulaLeaf kind symbol.text
  | .relation symbol _ => .relation symbol.text
  | .comparison symbol _ _ _ => .comparison symbol.text
  | .complexMeta symbol _ _ => .complexMeta symbol.text
  | .negation symbol _ => .negation symbol.text
  | .binary symbol connective _ _ _ => .binary symbol.text connective
  | .quantified symbol quantifier _ restriction _ =>
      .quantified symbol.text quantifier restriction.head

/-! ## Metavariables among the nodes -/

def NodeHead.isMetavariable : NodeHead -> Bool
  | .termLeaf kind _ => kind.family?.isSome
  | .formulaLeaf kind _ => kind.family?.isSome
  | .application .complexMeta _ | .complexMeta _ => true
  | _ => false

/-- The metavariable that a term is, parameters included. -/
def TermShape.metaNode? : TermShape -> Option Metavariable
  | .leaf kind symbol => kind.family?.map fun family => ⟨family, symbol, []⟩
  | .apply .complexMeta symbol params _ => some ⟨.complexTerm, symbol, params⟩
  | _ => none

/-- The metavariable that a formula is, parameters included. -/
def FormulaShape.metaNode? : FormulaShape -> Option Metavariable
  | .leaf kind symbol => kind.family?.map fun family => ⟨family, symbol, []⟩
  | .complexMeta symbol params _ => some ⟨.complexFormula, symbol, params⟩
  | _ => none

namespace Expression

/-- The head of the expression, whatever substitution is pending. -/
def head : Expression -> NodeHead
  | .formula f => f.shape.head
  | .term t => t.shape.head

def transform? : Expression -> Option Transform
  | .formula f => f.transform?
  | .term t => t.transform?

def withoutTransform : Expression -> Expression
  | .formula f => .formula f.withoutTransform
  | .term t => .term t.withoutTransform

/-- The metavariable that the expression is, whatever substitution is
pending. -/
def metaNode? : Expression -> Option Metavariable
  | .formula f => f.shape.metaNode?
  | .term t => t.shape.metaNode?

/-- The expression is a metavariable with parameters. -/
def isComplex (expression : Expression) : Bool :=
  expression.kind == .complexFormulaMeta || expression.kind == .complexTermMeta

/-- The node is the second expression, or it is found in one of its parts. The
two sides of a pending substitution are not parts. -/
inductive OccursIn (node : Expression) : Expression -> Prop
  | whole : OccursIn node node
  | part
      {whole part : Expression}
      (member : part ∈ whole.children)
      (occurs : OccursIn node part) : OccursIn node whole

/-- Every node of the expression has the property. -/
def Everywhere (holds : Expression -> Prop) (expression : Expression) : Prop :=
  ∀ node : Expression, node.OccursIn expression -> holds node

/-- What occurs in an expression is the expression or occurs in one of its parts. -/
theorem OccursIn.eq_or_part
    {node expression : Expression}
    (occurs : node.OccursIn expression) :
    node = expression ∨ ∃ part ∈ expression.children, node.OccursIn part := by
  cases occurs with
  | whole => exact .inl rfl
  | part member occurs => exact .inr ⟨_, member, occurs⟩

namespace Everywhere

variable {holds : Expression -> Prop} {expression child : Expression}

theorem whole (everywhere : Everywhere holds expression) : holds expression :=
  everywhere expression .whole

theorem part
    (everywhere : Everywhere holds expression)
    (member : child ∈ expression.children) : Everywhere holds child :=
  fun node occurs => everywhere node (.part member occurs)

theorem parts (everywhere : Everywhere holds expression) :
    ∀ part ∈ expression.children, Everywhere holds part :=
  fun _ => everywhere.part

/-- What holds of a node and throughout its parts holds everywhere in it. -/
theorem of_parts
    (whole : holds expression)
    (parts : ∀ part ∈ expression.children, Everywhere holds part) :
    Everywhere holds expression := by
  intro node occurs
  rcases occurs.eq_or_part with rfl | ⟨part, member, occurs⟩
  · exact whole
  · exact parts part member node occurs

/-- A property that holds everywhere holds of the node and throughout its parts. -/
theorem iff_parts : Everywhere holds expression ↔ holds expression ∧
    ∀ part ∈ expression.children, Everywhere holds part :=
  ⟨fun everywhere => ⟨everywhere.whole, everywhere.parts⟩,
    fun ⟨whole, parts⟩ => of_parts whole parts⟩

/-- For an expression that is given node by node this unfolds as far as the leaves. -/
theorem iff_forall : Everywhere holds expression ↔
    holds expression ∧ expression.children.Forall (Everywhere holds) := by
  rw [iff_parts, List.forall_iff_forall_mem]

end Everywhere

/-- No substitution is pending in the expression. -/
def IsBare (expression : Expression) : Prop :=
  expression.Everywhere fun node => node.transform? = none

/-- Metavariables are told by their heads. -/
theorem isSome_metaNode? (expression : Expression) :
    expression.metaNode?.isSome = expression.head.isMetavariable := by
  cases expression with
  | formula f =>
      rw [metaNode?, head]
      cases f.shape <;>
        simp [FormulaShape.metaNode?, FormulaShape.head,
          NodeHead.isMetavariable]
  | term t =>
      rw [metaNode?, head]
      rcases t.shape with _ | ⟨_ | _, _, _, _⟩ | _ <;>
        simp [TermShape.metaNode?, TermShape.head, NodeHead.isMetavariable]

/-- A head tells whether a node is a metavariable. -/
theorem metaNode?_eq_none_of_head
    {left right : Expression}
    (heads : left.head = right.head)
    (ordinary : left.metaNode? = none) : right.metaNode? = none := by
  have told := isSome_metaNode? right
  rw [← heads, ← isSome_metaNode?, ordinary] at told
  simpa using told

/-- How a metavariable is written where no substitution is pending. -/
inductive Writes : Expression -> Metavariable -> Prop
  | formulaLeaf
      {kind : FormulaLeaf}
      {family : MetaFamily}
      (symbol : Symbol)
      (familyEq : kind.family? = some family) :
      Writes (.formula (.plain (.leaf kind symbol))) ⟨family, symbol, []⟩
  | termLeaf
      {kind : TermLeaf}
      {family : MetaFamily}
      (symbol : Symbol)
      (familyEq : kind.family? = some family) :
      Writes (.term (.plain (.leaf kind symbol))) ⟨family, symbol, []⟩
  | complexFormula (symbol : Symbol) (params : List Term) (brackets : Brackets) :
      Writes (.formula (.plain (.complexMeta symbol params brackets)))
        ⟨.complexFormula, symbol, params⟩
  | complexTerm (symbol : Symbol) (params : List Term) (brackets : Brackets) :
      Writes (.term (.plain (.apply .complexMeta symbol params brackets)))
        ⟨.complexTerm, symbol, params⟩

theorem writes_of_metaNode?
    {expression : Expression}
    {metavariable : Metavariable}
    (plain : expression.transform? = none)
    (isMetavariable : expression.metaNode? = some metavariable) :
    expression.Writes metavariable := by
  match expression with
  | .formula (.plain shape) =>
      cases shape with
      | leaf kind symbol =>
          obtain ⟨family, familyEq, rfl⟩ := Option.map_eq_some_iff.mp isMetavariable
          exact .formulaLeaf symbol familyEq
      | complexMeta symbol params brackets =>
          cases isMetavariable
          exact .complexFormula symbol params brackets
      | _ => cases isMetavariable
  | .term (.plain shape) =>
      cases shape with
      | leaf kind symbol =>
          obtain ⟨family, familyEq, rfl⟩ := Option.map_eq_some_iff.mp isMetavariable
          exact .termLeaf symbol familyEq
      | apply head symbol params brackets =>
          cases head <;> cases isMetavariable
          exact .complexTerm symbol params brackets
      | operation => cases isMetavariable

end Expression

/-! ## Induction on nodes -/

/-- A property that a node without a pending substitution has as soon as its parts do, and
a node with one as soon as the node without it and both sides do. -/
structure Expression.Inductive (Holds : Expression -> Prop) : Prop where
  plain (expression : Expression) : expression.transform? = none ->
    (∀ part ∈ expression.children, Holds part) -> Holds expression
  transformed (expression : Expression) (transform : Transform) :
    expression.transform? = some transform ->
    Holds expression.withoutTransform -> Holds (.term transform.target) ->
    Holds (.term transform.replacement) -> Holds expression

section Induction

variable {Holds : Expression -> Prop}

mutual

/-- An inductive property holds of terms. -/
theorem Term.nodeInduction
    (law : Expression.Inductive Holds)
    (term : Term) : Holds (.term term) := by
  match term with
  | .plain shape => exact TermShape.nodeInduction law shape
  | .transformed shape target replacement _ =>
      exact law.transformed _ _ rfl (TermShape.nodeInduction law shape)
        (Term.nodeInduction law target) (Term.nodeInduction law replacement)

theorem TermShape.nodeInduction
    (law : Expression.Inductive Holds)
    (shape : TermShape) :
    Holds (.term (.plain shape)) := by
  refine law.plain _ rfl ?_
  match shape with
  | .leaf .. => exact List.forall_mem_nil _
  | .apply _ _ args _ =>
      exact List.forall_mem_map.mpr (Term.nodeInductionAll law args)
  | .operation _ left right _ =>
      exact List.forall_mem_cons.mpr ⟨Term.nodeInduction law left,
        List.forall_mem_singleton.mpr (Term.nodeInduction law right)⟩

theorem Term.nodeInductionAll
    (law : Expression.Inductive Holds)
    (terms : List Term) :
    ∀ term ∈ terms, Holds (.term term) := by
  match terms with
  | [] => exact List.forall_mem_nil _
  | term :: terms =>
      exact List.forall_mem_cons.mpr
        ⟨Term.nodeInduction law term, Term.nodeInductionAll law terms⟩

end

mutual

/-- An inductive property holds of formulas. -/
theorem Formula.nodeInduction
    (law : Expression.Inductive Holds)
    (formula : Formula) : Holds (.formula formula) := by
  match formula with
  | .plain shape => exact FormulaShape.nodeInduction law shape
  | .transformed shape transform =>
      exact law.transformed _ _ rfl (FormulaShape.nodeInduction law shape)
        (Term.nodeInduction law _)
        (Term.nodeInduction law _)

theorem FormulaShape.nodeInduction
    (law : Expression.Inductive Holds)
    (shape : FormulaShape) :
    Holds (.formula (.plain shape)) := by
  have terms := Term.nodeInduction law
  refine law.plain _ rfl ?_
  match shape with
  | .leaf .. => exact List.forall_mem_nil _
  | .relation .. | .complexMeta .. =>
      exact List.forall_mem_map.mpr fun term _ => terms term
  | .comparison .. =>
      exact List.forall_mem_cons.mpr
        ⟨terms _, List.forall_mem_singleton.mpr (terms _)⟩
  | .negation _ operand =>
      exact List.forall_mem_singleton.mpr (Formula.nodeInduction law operand)
  | .binary _ _ left right _ =>
      exact List.forall_mem_cons.mpr ⟨Formula.nodeInduction law left,
        List.forall_mem_singleton.mpr (Formula.nodeInduction law right)⟩
  | .quantified _ _ _ restriction scope =>
      exact List.forall_mem_cons.mpr ⟨terms _, List.forall_mem_append.mpr
        ⟨Restriction.nodeInduction law restriction,
          List.forall_mem_singleton.mpr (Formula.nodeInduction law scope)⟩⟩

/-- An inductive property holds of the parts of restrictions. -/
theorem Restriction.nodeInduction
    (law : Expression.Inductive Holds)
    (restriction : Restriction) :
    ∀ part ∈ FormulaShape.restrictionChildren restriction, Holds part := by
  match restriction with
  | .unrestricted => exact List.forall_mem_nil _
  | .bounded .. =>
      exact List.forall_mem_singleton.mpr (Term.nodeInduction law _)
  | .restricted _ formula _ =>
      exact List.forall_mem_singleton.mpr (Formula.nodeInduction law formula)

end

/-- A property holds of every expression if a node without a pending substitution
has it as soon as its parts do, and a node with one as soon as the node without
it and both sides do. -/
theorem Expression.nodeInduction
    (plain : ∀ expression : Expression, expression.transform? = none ->
      (∀ part ∈ expression.children, Holds part) -> Holds expression)
    (transformed : ∀ (expression : Expression) (transform : Transform),
      expression.transform? = some transform ->
      Holds expression.withoutTransform -> Holds (.term transform.target) ->
      Holds (.term transform.replacement) -> Holds expression)
    (expression : Expression) : Holds expression := by
  have law : Inductive Holds := ⟨plain, transformed⟩
  cases expression with
  | formula f => exact f.nodeInduction law
  | term t => exact t.nodeInduction law

end Induction

/-! ## Sameness, part by part -/

/-- Lists of terms are the same if their terms are, one by one. -/
theorem Term.sameAll_iff_forall₂ (left right : List Term) :
    Term.sameAll left right = true ↔
      List.Forall₂ (fun first second => first.same second = true) left right := by
  induction left generalizing right with
  | nil => cases right <;> simp [Term.sameAll]
  | cons term terms inductionHypothesis =>
      cases right with
      | nil => simp [Term.sameAll]
      | cons => simp [Term.sameAll, inductionHypothesis]

/-- Metavariables are the same if their families, texts and parameters are. -/
theorem Metavariable.same_iff_parts (left right : Metavariable) :
    left.same right = true ↔
      left.family = right.family ∧ left.symbol.text = right.symbol.text ∧
        List.Forall₂ (fun first second => first.same second = true) left.params
          right.params := by
  simp [same, Term.sameAll_iff_forall₂, and_assoc]

/-- Terms are the same if their heads are equal and their parts are the same. -/
theorem TermShape.same_iff_parts (left right : TermShape) :
    left.same right = true ↔ left.head = right.head ∧
      List.Forall₂ (fun first second => first.same second = true)
        left.children right.children := by
  cases left <;> cases right <;>
    simp [TermShape.same, TermShape.head, TermShape.children,
      Term.sameAll_iff_forall₂, and_assoc]

/-- Formulas are the same if their heads are equal and their parts are the same. -/
theorem FormulaShape.same_iff_parts (left right : FormulaShape) :
    left.same right = true ↔ left.head = right.head ∧
      List.Forall₂ (fun first second => first.same second = true)
        left.children right.children := by
  cases left with
  | quantified _ _ _ restriction _ =>
      cases right with
      | quantified _ _ _ restriction' _ =>
          cases restriction <;> cases restriction' <;>
            simp [FormulaShape.same, FormulaShape.head, FormulaShape.children,
              FormulaShape.restrictionChildren, Restriction.same,
              Restriction.head, Expression.same, and_assoc, and_left_comm]
      | _ => simp [FormulaShape.same, FormulaShape.head]
  | _ =>
      cases right <;>
        simp [FormulaShape.same, FormulaShape.head, FormulaShape.children,
          Term.sameAll_iff_forall₂, Expression.same, and_assoc]

namespace Expression

variable {left right : Expression}

/-- Expressions that are the same are both formulas or both terms. -/
theorem isSentence_eq_of_same (same : left.same right = true) :
    left.isSentence = right.isSentence := by
  cases left <;> cases right
  · rfl
  · cases same
  · cases same
  · rfl

/-- Expressions of different sorts have different heads. -/
theorem isSentence_eq_of_head (heads : left.head = right.head) :
    left.isSentence = right.isSentence := by
  cases left with
  | formula f =>
      cases right with
      | formula => rfl
      | term t =>
          cases shapeEq : f.shape <;> cases shapeEq' : t.shape <;>
            simp [head, shapeEq, shapeEq', FormulaShape.head, TermShape.head]
              at heads
  | term t =>
      cases right with
      | formula f =>
          cases shapeEq : f.shape <;> cases shapeEq' : t.shape <;>
            simp [head, shapeEq, shapeEq', FormulaShape.head, TermShape.head]
              at heads
      | term => rfl

/-- Without a pending substitution, expressions are the same when their heads are
equal and their parts the same. -/
theorem same_iff_parts
    (plain : left.transform? = none)
    (plain' : right.transform? = none) :
    left.same right = true ↔ left.head = right.head ∧
      List.Forall₂ (fun first second => first.same second = true)
        left.children right.children := by
  cases left with
  | formula f =>
      cases right with
      | formula f' =>
          cases f <;> cases plain
          cases f' <;> cases plain'
          exact FormulaShape.same_iff_parts _ _
      | term =>
          refine iff_of_false Bool.false_ne_true fun ⟨heads, _⟩ => ?_
          cases isSentence_eq_of_head heads
  | term t =>
      cases right with
      | formula =>
          refine iff_of_false Bool.false_ne_true fun ⟨heads, _⟩ => ?_
          cases isSentence_eq_of_head heads
      | term t' =>
          cases t <;> cases plain
          cases t' <;> cases plain'
          simpa [children, head, Expression.same, Term.same] using
            TermShape.same_iff_parts _ _

/-- Only an expression without a pending substitution is the same as one. -/
theorem transform?_eq_none_of_same
    (plain : left.transform? = none)
    (same : left.same right = true) : right.transform? = none := by
  cases left with
  | formula f =>
      cases f <;> cases plain
      rcases right with (_ | _) | _
      · rfl
      · cases same
      · cases same
  | term t =>
      cases t <;> cases plain
      rcases right with _ | (_ | _)
      · cases same
      · rfl
      · cases same

end Expression

/-- A term that is the same as a metavariable is one, and the two are the same. -/
theorem TermShape.exists_metaNode?_of_same
    {left right : TermShape}
    {metavariable : Metavariable}
    (same : left.same right = true)
    (isMetavariable : right.metaNode? = some metavariable) :
    ∃ metavariable', left.metaNode? = some metavariable' ∧
      metavariable'.same metavariable = true := by
  cases right with
  | leaf kind symbol =>
      cases left <;> simp [TermShape.same] at same
      obtain ⟨family, familyEq, rfl⟩ := Option.map_eq_some_iff.mp isMetavariable
      simp [metaNode?, same, familyEq, Metavariable.same, Term.sameAll]
  | apply head symbol params =>
      cases left <;> simp [TermShape.same] at same
      cases head <;> cases isMetavariable
      simp [metaNode?, same, Metavariable.same]
  | operation => cases isMetavariable

/-- A formula that is the same as a metavariable is one, and the two are the same. -/
theorem FormulaShape.exists_metaNode?_of_same
    {left right : FormulaShape}
    {metavariable : Metavariable}
    (same : left.same right = true)
    (isMetavariable : right.metaNode? = some metavariable) :
    ∃ metavariable', left.metaNode? = some metavariable' ∧
      metavariable'.same metavariable = true := by
  cases right with
  | leaf kind symbol =>
      cases left <;> simp [FormulaShape.same] at same
      obtain ⟨family, familyEq, rfl⟩ := Option.map_eq_some_iff.mp isMetavariable
      simp [metaNode?, same, familyEq, Metavariable.same, Term.sameAll]
  | complexMeta symbol params =>
      cases left <;> simp [FormulaShape.same] at same
      cases isMetavariable
      simp [metaNode?, same, Metavariable.same]
  | _ => cases isMetavariable

namespace Expression

variable {left right : Expression}

/-- Only an expression with a pending substitution is the same as one, and they are
the same without it. -/
theorem exists_transform?_of_same
    {transform : Transform}
    (pending : left.transform? = some transform)
    (same : left.same right = true) :
    ∃ transform', right.transform? = some transform' ∧
      transform.same transform' = true ∧
      left.withoutTransform.same right.withoutTransform = true := by
  match left, right with
  | .formula (.transformed ..), .formula (.transformed ..) =>
      cases pending
      obtain ⟨shapes, transforms⟩ := Bool.and_eq_true_iff.mp same
      exact ⟨_, rfl, transforms, shapes⟩
  | .term (.transformed ..), .term (.transformed ..) =>
      cases pending
      simp only [Expression.same, Term.same, Bool.and_eq_true] at same
      obtain ⟨⟨shapes, targets⟩, replacements⟩ := same
      exact ⟨_, rfl, Bool.and_eq_true_iff.mpr ⟨targets, replacements⟩, shapes⟩
  | .formula (.plain _), _ | .term (.plain _), _ => cases pending
  | .formula (.transformed ..), .formula (.plain _)
  | .term (.transformed ..), .term (.plain _)
  | .formula _, .term _ | .term _, .formula _ => cases same

/-- What is the same as a metavariable is the same metavariable. -/
theorem exists_metaNode?_of_same
    {metavariable : Metavariable}
    (plain : left.transform? = none)
    (same : left.same right = true)
    (isMetavariable : right.metaNode? = some metavariable) :
    ∃ metavariable', left.metaNode? = some metavariable' ∧
      metavariable'.same metavariable = true := by
  match left, right with
  | .formula (.plain _), .formula (.plain _) =>
      exact FormulaShape.exists_metaNode?_of_same same isMetavariable
  | .term (.plain _), .term (.plain _) =>
      exact TermShape.exists_metaNode?_of_same same isMetavariable
  | .formula (.transformed ..), _ | .term (.transformed ..), _ => cases plain
  | .formula (.plain _), .formula (.transformed ..)
  | .term (.plain _), .term (.transformed ..)
  | .formula _, .term _ | .term _, .formula _ => cases same

end Expression

/-! ## Readings, part by part -/

section Readings

variable (reading : Reading) {expression : Expression}

/-- Readings leave the kind of a restriction as it is. -/
theorem Restriction.head_readBy (restriction : Restriction) :
    (restriction.readBy reading).head = restriction.head := by
  cases restriction <;> rfl

/-- The parts of a restriction are read one by one. -/
theorem Restriction.children_readBy (restriction : Restriction) :
    FormulaShape.restrictionChildren (restriction.readBy reading) =
      (FormulaShape.restrictionChildren restriction).map fun part =>
        part.readBy reading := by
  cases restriction <;> rfl

namespace Expression

/-- A node that is not a metavariable is read part by part. -/
theorem readBy_parts
    (plain : expression.transform? = none)
    (ordinary : expression.metaNode? = none) :
    (expression.readBy reading).transform? = none ∧
      (expression.readBy reading).head = expression.head ∧
      (expression.readBy reading).children =
        expression.children.map fun part => part.readBy reading := by
  cases expression with
  | formula f =>
      cases f with
      | transformed => cases plain
      | plain shape =>
          cases shape with
          | leaf kind => cases kind <;> cases ordinary; exact ⟨rfl, rfl, rfl⟩
          | relation =>
              simp [readBy, Formula.readBy, FormulaShape.readBy, transform?,
                Formula.transform?, head, FormulaShape.head, children,
                FormulaShape.children, Term.readAllBy_eq_map]
          | complexMeta => cases ordinary
          | quantified _ _ _ restriction =>
              simp [readBy, Formula.readBy, FormulaShape.readBy, transform?,
                Formula.transform?, head, FormulaShape.head, children,
                FormulaShape.children, restriction.head_readBy reading,
                restriction.children_readBy reading]
          | comparison | negation | binary => exact ⟨rfl, rfl, rfl⟩
  | term t =>
      cases t with
      | transformed => cases plain
      | plain shape =>
          cases shape with
          | leaf kind => cases kind <;> cases ordinary <;> exact ⟨rfl, rfl, rfl⟩
          | apply head =>
              cases head with
              | complexMeta => cases ordinary
              | function =>
                  simp [readBy, Term.readBy, TermShape.readBy, transform?,
                    Term.transform?, Expression.head, TermShape.head, children,
                    TermShape.children, Term.readAllBy_eq_map]
          | operation => exact ⟨rfl, rfl, rfl⟩

/-- A metavariable is read as what it stands for, if that is of its sort. -/
theorem readBy_of_meaning
    (plain : expression.transform? = none)
    {metavariable : Metavariable}
    (isMetavariable : expression.metaNode? = some metavariable)
    {value : Expression}
    (meaning : reading.meaning metavariable.family metavariable.symbol
      metavariable.params (Term.readAllBy metavariable.params reading) =
        some value)
    (sort : value.isSentence = expression.isSentence) :
    expression.readBy reading = value := by
  cases writes_of_metaNode? plain isMetavariable with
  | formulaLeaf symbol familyEq =>
      cases value with
      | term => cases sort
      | formula value =>
          rw [Term.readAllBy] at meaning
          simp [readBy, Formula.readBy, FormulaShape.readBy, familyEq, meaning,
            formula?]
  | termLeaf symbol familyEq =>
      cases value with
      | formula => cases sort
      | term value =>
          rw [Term.readAllBy] at meaning
          simp [readBy, Term.readBy, TermShape.readBy, familyEq, meaning, term?]
  | complexFormula =>
      cases value with
      | term => cases sort
      | formula value =>
          simp [readBy, Formula.readBy, FormulaShape.readBy, meaning, formula?]
  | complexTerm =>
      cases value with
      | formula => cases sort
      | term value =>
          simp [readBy, Term.readBy, TermShape.readBy, meaning, term?]

end Expression

end Readings
end SymbolicLogic
