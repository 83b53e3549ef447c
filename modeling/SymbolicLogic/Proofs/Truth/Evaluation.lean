import SymbolicLogic.Proofs.Truth.Nodes

/-!
# Values of the nodes

A node's turn comes after the turns of its parts, as these are on lower levels.
So when a node is computed, the places it refers to hold the values of its
parts, and it gets its own.
-/

namespace SymbolicLogic

/-- The formula has the given values in the interpretations, row by row. -/
def Formula.HasValues
    (formula : Formula)
    (basics : List Formula)
    (interpretations : List Interpretation)
    (values : List Bool) : Prop :=
  List.Forall₂
    (fun interpretation value =>
      formula.evaluate? basics interpretation = some value)
    interpretations values

namespace Formula.HasValues

variable {formula operand left right : Formula} {symbol : Symbol}
  {connective : Connective} {brackets : Option Brackets}
  {basics : List Formula} {interpretations : List Interpretation}
  {values valuesLeft valuesRight : List Bool}

theorem basic
    (isBasic : formula.isBasic = true)
    {place : Nat}
    (declared : (basics.findIdx? fun basic => basic.same formula) = some place)
    (interpretations : List Interpretation) :
    formula.HasValues basics interpretations
      (interpretations.map fun interpretation =>
        interpretation.value place) := by
  rw [HasValues, List.forall₂_map_right_iff, List.forall₂_same]
  intro interpretation _
  rw [Formula.evaluate?_of_isBasic isBasic, declared, Option.map_some]

/-- The values of a negation are those of its operand, turned over. -/
theorem negation
    (shapeEq : formula.shape = .negation symbol operand)
    (hasValues : operand.HasValues basics interpretations values) :
    formula.HasValues basics interpretations (values.map not) := by
  rw [HasValues, List.forall₂_map_right_iff]
  apply List.Forall₂.imp _ hasValues
  intro interpretation value evaluated
  rw [Formula.evaluate?_of_negation shapeEq, evaluated, Option.map_some]

/-- The values of a binary formula are computed from those of its sides, row by row. -/
theorem binary
    (shapeEq : formula.shape =
      .binary symbol connective left right brackets)
    (hasLeft : left.HasValues basics interpretations valuesLeft)
    (hasRight : right.HasValues basics interpretations valuesRight) :
    formula.HasValues basics interpretations
      (List.zipWith connective.apply valuesLeft valuesRight) := by
  induction hasLeft generalizing valuesRight with
  | nil =>
      cases hasRight
      exact .nil
  | cons evaluatedLeft _ inductionHypothesis =>
      cases hasRight with
      | cons evaluatedRight others =>
          refine .cons ?_ (inductionHypothesis others)
          rw [Formula.evaluate?_of_binary shapeEq, evaluatedLeft,
            evaluatedRight, connective.apply_eq]
          rfl

end Formula.HasValues

/-- The places of the parts of a node. -/
def NodeKind.parts : NodeKind -> List Nat
  | .basic _ => []
  | .negation operand => [operand]
  | .binary _ left right => [left, right]

namespace Decomposition

/-- The values at a place are those of the formula there. -/
def Settled
    (decomposition : Decomposition)
    (basics : List Formula)
    (interpretations : List Interpretation)
    (values : List (List Bool))
    (place : Nat) : Prop :=
  ∀ ⦃formula⦄, decomposition.formulas[place]? = some formula ->
    ∃ column, values[place]? = some column ∧
      formula.HasValues basics interpretations column

/-- Each place in the second list has its parts before it, in that list or among
the places that are done. -/
inductive Ready (decomposition : Decomposition) : List Nat -> List Nat -> Prop
  | nil (done : List Nat) : Ready decomposition done []
  | cons
      {place : Nat}
      {done rest : List Nat}
      (parts_done : ∀ node, decomposition.nodes[place]? = some node ->
        ∀ part ∈ node.kind.parts, part ∈ done)
      (ready : Ready decomposition (place :: done) rest) :
      Ready decomposition done (place :: rest)

variable {decomposition : Decomposition} {basics : List Formula}
  {interpretations : List Interpretation} {values : List (List Bool)}
  {node : Node} {place part : Nat}

theorem formulas_getElem?
    (found : decomposition.nodes[place]? = some node) :
    decomposition.formulas[place]? = some node.formula := by
  rw [formulas, List.getElem?_map, found, Option.map_some]

/-- A node gets its own values from those of its parts. -/
theorem hasValues_valuesOf
    (linked : node.Linked basics decomposition.formulas)
    (settled : ∀ part ∈ node.kind.parts,
      decomposition.Settled basics interpretations values part) :
    node.formula.HasValues basics interpretations
      (valuesOf interpretations values node.kind) := by
  cases linked with
  | basic isBasic declared => exact .basic isBasic declared interpretations
  | @negation formula operand symbol inner shapeEq innerEq =>
      obtain ⟨column, found, hasValues⟩ :=
        settled inner (List.mem_singleton_self _) innerEq
      rw [valuesOf, found]
      exact hasValues.negation shapeEq
  | @binary formula left right symbol connective brackets first second shapeEq
      firstEq secondEq =>
      obtain ⟨column, found, hasLeft⟩ :=
        settled first List.mem_cons_self firstEq
      obtain ⟨column', found', hasRight⟩ :=
        settled second (List.mem_cons_of_mem _ (List.mem_singleton_self _))
          secondEq
      rw [valuesOf, found, found']
      exact hasLeft.binary shapeEq hasRight

@[simp] theorem length_step
    (decomposition : Decomposition)
    (interpretations : List Interpretation)
    (values : List (List Bool))
    (place : Nat) :
    (decomposition.step interpretations values place).length =
      values.length := by
  unfold step
  split
  · exact List.length_set
  · rfl

/-- One step settles the node whose turn it is, and unsettles none. -/
theorem settled_step
    (linked : ∀ node ∈ decomposition.nodes,
      node.Linked basics decomposition.formulas)
    (enough : values.length = decomposition.nodes.length)
    {turn : Nat}
    (partsSettled : ∀ node, decomposition.nodes[turn]? = some node ->
      ∀ part ∈ node.kind.parts,
        decomposition.Settled basics interpretations values part)
    (settled : place = turn ∨
      decomposition.Settled basics interpretations values place) :
    decomposition.Settled basics interpretations
      (decomposition.step interpretations values turn) place := by
  intro formula inTable
  rw [step]
  cases found : decomposition.nodes[turn]? with
  | none =>
      rcases settled with rfl | settled
      · rw [formulas, List.getElem?_map, found] at inTable
        cases inTable
      · exact settled inTable
  | some node =>
      by_cases here : turn = place
      · subst here
        rw [formulas_getElem? found] at inTable
        cases inTable
        have within : turn < values.length :=
          enough ▸ (List.getElem?_eq_some_iff.mp found).1
        exact ⟨_, List.getElem?_set_self within,
          hasValues_valuesOf (linked node (List.mem_of_getElem? found))
            (partsSettled node found)⟩
      · obtain ⟨column, foundColumn, hasValues⟩ :=
          (settled.resolve_left (Ne.symm here)) inTable
        exact ⟨column, by rw [List.getElem?_set_ne here, foundColumn],
          hasValues⟩

/-- The run settles the node at each place of a list that is ready. -/
theorem settled_foldl
    (linked : ∀ node ∈ decomposition.nodes,
      node.Linked basics decomposition.formulas)
    {done rest : List Nat}
    (ready : decomposition.Ready done rest)
    (enough : values.length = decomposition.nodes.length)
    (settled : ∀ place ∈ done,
      decomposition.Settled basics interpretations values place) :
    ∀ place, place ∈ done ∨ place ∈ rest ->
      decomposition.Settled basics interpretations
        (rest.foldl (decomposition.step interpretations) values) place := by
  induction ready generalizing values with
  | nil done =>
      intro place member
      exact settled place (member.resolve_right List.not_mem_nil)
  | @cons turn done rest partsDone _ inductionHypothesis =>
      intro place member
      rw [List.foldl_cons]
      apply inductionHypothesis
      · rw [length_step, enough]
      · intro earlier earlierDone
        apply settled_step linked enough
        · intro node found part isPart
          exact settled part (partsDone node found part isPart)
        · exact (List.mem_cons.mp earlierDone).imp id (settled earlier)
      · rw [List.mem_cons]
        rcases member with member | member
        · exact .inl (.inr member)
        · rcases List.mem_cons.mp member with here | member
          · exact .inl (.inl here)
          · exact .inr member

/-- The level that is looked up is that of the formula. -/
theorem levelAt_eq
    {formula : Formula}
    (found : decomposition.formulas[place]? = some formula) :
    decomposition.levelAt place = formula.level := by
  rw [formulas, List.getElem?_map] at found
  obtain ⟨node, foundNode, rfl⟩ := Option.map_eq_some_iff.mp found
  rw [levelAt, foundNode]
  rfl

/-- The parts of a node are nodes on lower levels. -/
theorem part_lower
    (linked : node.Linked basics decomposition.formulas)
    (found : decomposition.nodes[place]? = some node)
    (isPart : part ∈ node.kind.parts) :
    part < decomposition.nodes.length ∧
      decomposition.levelAt part < decomposition.levelAt place := by
  have inside {formula : Formula} {place : Nat}
      (inTable : decomposition.formulas[place]? = some formula) :
      place < decomposition.nodes.length :=
    length_formulas decomposition ▸ (List.getElem?_eq_some_iff.mp inTable).1
  rw [levelAt_eq (formulas_getElem? found)]
  cases linked with
  | basic isBasic declared => cases isPart
  | negation shapeEq innerEq =>
      rw [List.mem_singleton.mp isPart, levelAt_eq innerEq]
      exact ⟨inside innerEq, Formula.level_lt_of_negation shapeEq⟩
  | binary shapeEq firstEq secondEq =>
      have ⟨leftLower, rightLower⟩ := Formula.level_lt_of_binary shapeEq
      rcases List.mem_cons.mp isPart with rfl | isPart
      · rw [levelAt_eq firstEq]
        exact ⟨inside firstEq, leftLower⟩
      · rw [List.mem_singleton.mp isPart, levelAt_eq secondEq]
        exact ⟨inside secondEq, rightLower⟩

/-- A list in the order of levels is ready, if what it lacks is done. -/
theorem ready_of_pairwise
    (linked : ∀ node ∈ decomposition.nodes,
      node.Linked basics decomposition.formulas)
    {done rest : List Nat}
    (ascending : rest.Pairwise fun first second =>
      decomposition.levelAt first ≤ decomposition.levelAt second)
    (covered : ∀ place, place < decomposition.nodes.length ->
      place ∈ done ∨ place ∈ rest) :
    decomposition.Ready done rest := by
  induction rest generalizing done with
  | nil => exact .nil done
  | cons place rest inductionHypothesis =>
      have ⟨lowest, ascending⟩ := List.pairwise_cons.mp ascending
      refine .cons ?_ (inductionHypothesis ascending ?_)
      · intro node found part isPart
        have ⟨inside, lower⟩ :=
          part_lower (linked node (List.mem_of_getElem? found)) found isPart
        rcases covered part inside with isDone | later
        · exact isDone
        · exfalso
          rcases List.mem_cons.mp later with rfl | later
          · exact Nat.lt_irrefl _ lower
          · have := lowest part later
            omega
      · intro other inside
        rcases covered other inside with isDone | later
        · exact .inl (List.mem_cons_of_mem _ isDone)
        · rcases List.mem_cons.mp later with rfl | later
          · exact .inl List.mem_cons_self
          · exact .inr later

/-- Every node is computed at some time. -/
theorem mem_order (inside : place < decomposition.nodes.length) :
    place ∈ decomposition.order := by
  rw [order, List.mem_mergeSort, List.mem_range]
  exact inside

/-- In the order of levels, whatever a node needs is computed before it. -/
theorem ready_order
    (linked : ∀ node ∈ decomposition.nodes,
      node.Linked basics decomposition.formulas) :
    decomposition.Ready [] decomposition.order := by
  apply ready_of_pairwise linked
  · have ascending := @List.pairwise_mergeSort _
      (fun first second =>
        decide (decomposition.levelAt first ≤ decomposition.levelAt second))
      (by intro first second third; simpa using Nat.le_trans)
      (by intro first second; simpa using Nat.le_total _ _)
      (List.range decomposition.nodes.length)
    exact ascending.imp fun le => of_decide_eq_true le
  · exact fun place inside => .inr (mem_order inside)

/-- Every node ends up with the values of its formula. -/
theorem settled_evaluate
    (linked : ∀ node ∈ decomposition.nodes,
      node.Linked basics decomposition.formulas)
    (interpretations : List Interpretation)
    (place : Nat) :
    decomposition.Settled basics interpretations
      (decomposition.evaluate interpretations) place := by
  intro formula inTable
  have inside : place < decomposition.nodes.length :=
    length_formulas decomposition ▸ (List.getElem?_eq_some_iff.mp inTable).1
  exact settled_foldl linked (ready_order linked) List.length_replicate
    (fun _ impossible => absurd impossible List.not_mem_nil) place
    (.inr (mem_order inside)) inTable

end Decomposition
end SymbolicLogic
