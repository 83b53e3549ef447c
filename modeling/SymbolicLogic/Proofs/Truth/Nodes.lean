import SymbolicLogic.Proofs.Lists
import SymbolicLogic.Proofs.Outcome
import SymbolicLogic.Proofs.Truth.Parts

/-!
# The table of parts

Adding a formula appends nodes to the table and leaves the earlier ones alone.
The nodes of negations and binary formulas are added before all of their parts
are, with a place that is set later. Once a formula has been added, every new
node refers to the places at which its parts stand, and the new displayed places
are those of the displayed parts, in the order of the columns.
-/

namespace SymbolicLogic

/-- The kind of a node agrees with its formula: a basic formula is declared at
the place it names, and any other formula has its parts at the places of
`parts` that it names. -/
inductive Node.Linked (basics parts : List Formula) : Node -> Prop
  | basic
      {formula : Formula}
      {place : Nat}
      (isBasic : formula.isBasic = true)
      (declared :
        (basics.findIdx? fun basic => basic.same formula) = some place) :
      Linked basics parts ⟨formula, .basic place⟩
  | negation
      {formula operand : Formula}
      {symbol : Symbol}
      {inner : Nat}
      (shape_eq : formula.shape = .negation symbol operand)
      (inner_eq : parts[inner]? = some operand) :
      Linked basics parts ⟨formula, .negation inner⟩
  | binary
      {formula left right : Formula}
      {symbol : Symbol}
      {connective : Connective}
      {brackets : Option Brackets}
      {first second : Nat}
      (shape_eq : formula.shape =
        .binary symbol connective left right brackets)
      (first_eq : parts[first]? = some left)
      (second_eq : parts[second]? = some right) :
      Linked basics parts ⟨formula, .binary connective first second⟩

/-- Links stay right when nodes are added. -/
theorem Node.Linked.append
    {basics parts : List Formula}
    {node : Node}
    (linked : node.Linked basics parts)
    (more : List Formula) : node.Linked basics (parts ++ more) := by
  cases linked with
  | basic isBasic declared => exact .basic isBasic declared
  | negation shapeEq innerEq =>
      exact .negation shapeEq (getElem?_append_of_eq_some innerEq more)
  | binary shapeEq firstEq secondEq =>
      exact .binary shapeEq (getElem?_append_of_eq_some firstEq more)
        (getElem?_append_of_eq_some secondEq more)

namespace Formula

variable {formula operand left right : Formula} {symbol : Symbol}
  {connective : Connective} {brackets : Option Brackets}

/-- A negation is pushed, then taken apart, then linked to its operand. -/
theorem decompose_of_negation
    (equation : formula.shape = .negation symbol operand)
    (basics : List Formula)
    (shown : Bool)
    (before : Decomposition) :
    formula.decompose basics shown before = do
      let (inner, added) <-
        operand.decompose basics (shown && !operand.isAbsorbed)
          (before.push formula (.negation Decomposition.unset) shown)
      return (before.nodes.length,
        added.link before.nodes.length (.negation inner)) := by
  cases formula <;> cases equation <;> rfl

/-- The left side of a binary formula is taken apart before it is pushed, the right side
after it. -/
theorem decompose_of_binary
    (equation : formula.shape =
      .binary symbol connective left right brackets)
    (basics : List Formula)
    (shown : Bool)
    (before : Decomposition) :
    formula.decompose basics shown before = do
      let (first, added) <- left.decompose basics shown before
      let (second, finished) <- right.decompose basics shown
        (added.push formula (.binary connective first Decomposition.unset)
          shown)
      return (added.nodes.length,
        finished.link added.nodes.length (.binary connective first second)) := by
  cases formula <;> cases equation <;> rfl

/-- A basic formula becomes one node. -/
theorem decompose_of_isBasic
    (isBasic : formula.isBasic = true)
    (basics : List Formula)
    (shown : Bool)
    (before : Decomposition) :
    formula.decompose basics shown before =
      before.pushBasic basics formula shown := by
  cases formula with
  | plain shape => cases shape <;> first | rfl | cases isBasic
  | transformed shape transform =>
      cases shape <;> first | rfl | cases isBasic

end Formula

namespace Decomposition

/-- The formulas of the nodes. -/
def formulas (decomposition : Decomposition) : List Formula :=
  decomposition.nodes.map Node.formula

/-- Setting the kind of a node leaves the nodes around it alone. -/
theorem modify_kind
    (before after : List Node)
    (formula : Formula)
    (kind kind' : NodeKind) :
    (before ++ ⟨formula, kind⟩ :: after).modify before.length
        (fun node => { node with kind := kind' }) =
      before ++ ⟨formula, kind'⟩ :: after := by
  have atHead := List.modifyTailIdx_add
    (List.modifyHead fun node : Node => { node with kind := kind' })
    0 before (⟨formula, kind⟩ :: after)
  exact atHead

variable {basics : List Formula} {formula operand left right : Formula}
  {symbol : Symbol} {connective : Connective} {brackets : Option Brackets}
  {shown : Bool} {before middle finished after : Decomposition}
  {first second inner place : Nat} {added addedLeft addedRight : List Node}
  {places placesLeft placesRight : List Nat}

@[simp] theorem nodes_push
    (decomposition : Decomposition)
    (formula : Formula)
    (kind : NodeKind)
    (shown : Bool) :
    (decomposition.push formula kind shown).nodes =
      decomposition.nodes ++ [⟨formula, kind⟩] := rfl

@[simp] theorem formulas_push
    (decomposition : Decomposition)
    (formula : Formula)
    (kind : NodeKind)
    (shown : Bool) :
    (decomposition.push formula kind shown).formulas =
      decomposition.formulas ++ [formula] := by
  simp [formulas]

@[simp] theorem displayed_push
    (decomposition : Decomposition)
    (formula : Formula)
    (kind : NodeKind)
    (shown : Bool) :
    (decomposition.push formula kind shown).displayed =
      decomposition.displayed ++
        if shown then [decomposition.nodes.length] else [] := by
  cases shown <;> simp [push]

/-- The place of a node, if it is shown, is the only one it adds itself. -/
theorem eq_of_mem_own
    {here : Nat}
    (member : place ∈ if shown then [here] else []) : place = here := by
  cases shown with
  | false => cases member
  | true => exact List.mem_singleton.mp member

@[simp] theorem displayed_link
    (decomposition : Decomposition)
    (place : Nat)
    (kind : NodeKind) :
    (decomposition.link place kind).displayed = decomposition.displayed := rfl

@[simp] theorem length_formulas (decomposition : Decomposition) :
    decomposition.formulas.length = decomposition.nodes.length :=
  List.length_map _

@[simp] theorem length_link
    (decomposition : Decomposition)
    (place : Nat)
    (kind : NodeKind) :
    (decomposition.link place kind).nodes.length =
      decomposition.nodes.length :=
  List.length_modify _ _ _

/-- Linking changes no formula. -/
@[simp] theorem formulas_link
    (decomposition : Decomposition)
    (place : Nat)
    (kind : NodeKind) :
    (decomposition.link place kind).formulas = decomposition.formulas := by
  apply List.ext_getElem?
  intro index
  simp only [formulas, link, List.getElem?_map, List.getElem?_modify]
  cases decomposition.nodes[index]? with
  | none => rfl
  | some node =>
      by_cases here : place = index
      · simp [here]
      · simp [here]

/-- What adding a formula does: the `added` nodes are appended, and `places`
are displayed from then on. -/
structure Extends
    (basics : List Formula)
    (formula : Formula)
    (shown : Bool)
    (before : Decomposition)
    (place : Nat)
    (after : Decomposition)
    (added : List Node)
    (places : List Nat) : Prop where
  nodes_eq : after.nodes = before.nodes ++ added
  displayed_eq : after.displayed = before.displayed ++ places
  linked : ∀ node ∈ added, node.Linked basics after.formulas
  formula_eq : after.formulas[place]? = some formula
  parts : List.Forall₂
    (fun place part => after.formulas[place]? = some part) places
    (if shown then formula.displayedParts else [])
  ascending : places.Pairwise (· < ·)
  bounded : ∀ place ∈ places,
    before.nodes.length ≤ place ∧ place < after.nodes.length
  mem : shown = true -> place ∈ places

namespace Extends

/-- Decomposing appends the formulas of the nodes it adds. -/
theorem formulas_eq
    (extension : Extends basics formula shown before place after added places) :
    after.formulas = before.formulas ++ added.map Node.formula := by
  rw [formulas, extension.nodes_eq, List.map_append, formulas]

/-- A basic formula is one node. -/
theorem basic
    (isBasic : formula.isBasic = true)
    {declaration : Nat}
    (declared :
      (basics.findIdx? fun basic => basic.same formula) = some declaration) :
    Extends basics formula shown before before.nodes.length
      (before.push formula (.basic declaration) shown)
      [⟨formula, .basic declaration⟩]
      (if shown then [before.nodes.length] else []) where
  nodes_eq := rfl
  displayed_eq := displayed_push _ _ _ _
  linked := by
    intro node member
    rw [List.mem_singleton.mp member]
    exact .basic isBasic declared
  formula_eq := by simp [← length_formulas]
  parts := by
    rw [Formula.displayedParts_of_isBasic isBasic]
    cases shown with
    | false => exact .nil
    | true => exact .cons (by simp [← length_formulas]) .nil
  ascending := by cases shown <;> simp
  bounded := by cases shown <;> simp
  mem := by
    rintro rfl
    exact List.mem_singleton_self _

theorem length_le
    (extension : Extends basics formula shown before place after added places) :
    before.nodes.length ≤ after.nodes.length := by
  rw [extension.nodes_eq, List.length_append]
  exact Nat.le_add_right _ _

section Pushed

variable {unset : NodeKind} {shown' : Bool}

/-- A node that was pushed before stays where it is. -/
theorem formula_pushed
    (extension : Extends basics operand shown'
      (before.push formula unset shown) inner finished added places) :
    finished.formulas[before.nodes.length]? = some formula := by
  rw [extension.formulas_eq, formulas_push]
  apply getElem?_append_of_eq_some
  simp [← length_formulas]

theorem lt_length_of_pushed
    (extension : Extends basics operand shown'
      (before.push formula unset shown) inner finished added places) :
    before.nodes.length < finished.nodes.length := by
  have longer := extension.length_le
  rw [nodes_push, List.length_append, List.length_singleton] at longer
  omega

/-- What was displayed after a node was pushed has a later place. -/
theorem lt_of_pushed
    (extension : Extends basics operand shown'
      (before.push formula unset shown) inner finished added places)
    (member : place ∈ places) : before.nodes.length < place := by
  have lower := (extension.bounded place member).1
  rw [nodes_push, List.length_append, List.length_singleton] at lower
  omega

/-- The places of a node and of what is decomposed after it are ascending. -/
theorem ascending_of_pushed
    (extension : Extends basics operand shown'
      (before.push formula unset shown) inner finished added places) :
    ((if shown then [before.nodes.length] else []) ++ places).Pairwise
      (· < ·) := by
  rw [List.pairwise_append]
  refine ⟨by cases shown <;> simp, extension.ascending, ?_⟩
  intro here isHere later member
  rw [eq_of_mem_own isHere]
  exact extension.lt_of_pushed member

/-- These places are places of the new nodes. -/
theorem bounded_of_pushed
    (extension : Extends basics operand shown'
      (before.push formula unset shown) inner finished added places) :
    ∀ place ∈ (if shown then [before.nodes.length] else []) ++ places,
      before.nodes.length ≤ place ∧ place < finished.nodes.length := by
  intro place member
  rcases List.mem_append.mp member with isHere | member
  · rw [eq_of_mem_own isHere]
    exact ⟨Nat.le_refl _, extension.lt_length_of_pushed⟩
  · exact ⟨Nat.le_of_lt (extension.lt_of_pushed member),
      (extension.bounded place member).2⟩

/-- A node set once its parts are known, between the nodes around it. -/
theorem nodes_link
    (extension : Extends basics operand shown'
      (before.push formula unset shown) inner finished added places)
    (kind : NodeKind) :
    (finished.link before.nodes.length kind).nodes =
      before.nodes ++ ⟨formula, kind⟩ :: added := by
  rw [link, extension.nodes_eq, nodes_push, List.append_assoc]
  exact modify_kind _ _ _ _ _

end Pushed

/-- A negation is one node before those of its operand. -/
theorem negation
    (shapeEq : formula.shape = .negation symbol operand)
    {unset : NodeKind}
    (extension : Extends basics operand (shown && !operand.isAbsorbed)
      (before.push formula unset shown) inner finished added places) :
    Extends basics formula shown before before.nodes.length
      (finished.link before.nodes.length (.negation inner))
      (⟨formula, .negation inner⟩ :: added)
      ((if shown then [before.nodes.length] else []) ++ places) where
  nodes_eq := extension.nodes_link _
  displayed_eq := by
    rw [displayed_link, extension.displayed_eq, displayed_push,
      List.append_assoc]
  linked := by
    rw [formulas_link]
    intro node member
    rcases List.mem_cons.mp member with rfl | member
    · exact .negation shapeEq extension.formula_eq
    · exact extension.linked node member
  formula_eq := by
    rw [formulas_link]
    exact extension.formula_pushed
  parts := by
    have partsOperand := extension.parts
    rw [formulas_link, Formula.displayedParts_of_negation shapeEq]
    cases shown with
    | false => exact partsOperand
    | true =>
        refine .cons extension.formula_pushed ?_
        cases absorbed : operand.isAbsorbed with
        | false => simpa [absorbed] using partsOperand
        | true => simpa [absorbed] using partsOperand
  ascending := extension.ascending_of_pushed
  bounded := by
    rw [length_link]
    exact extension.bounded_of_pushed
  mem := by
    rintro rfl
    exact List.mem_append_left _ (List.mem_singleton_self _)

/-- A binary formula is one node between those of its operands. -/
theorem binary
    (shapeEq : formula.shape =
      .binary symbol connective left right brackets)
    {unset : NodeKind}
    (extensionLeft :
      Extends basics left shown before first middle addedLeft placesLeft)
    (extensionRight : Extends basics right shown
      (middle.push formula unset shown) second finished addedRight
      placesRight) :
    Extends basics formula shown before middle.nodes.length
      (finished.link middle.nodes.length (.binary connective first second))
      (addedLeft ++ ⟨formula, .binary connective first second⟩ :: addedRight)
      (placesLeft ++
        ((if shown then [middle.nodes.length] else []) ++ placesRight)) := by
  have longer : finished.formulas =
      middle.formulas ++ (formula :: addedRight.map Node.formula) := by
    rw [extensionRight.formulas_eq, formulas_push, List.append_assoc]
    rfl
  have firstEq : finished.formulas[first]? = some left := by
    rw [longer]
    exact getElem?_append_of_eq_some extensionLeft.formula_eq _
  have partsLeft := extensionLeft.parts.imp fun place part found =>
    (longer ▸ getElem?_append_of_eq_some found _ :
      finished.formulas[place]? = some part)
  have leftLe := extensionLeft.length_le
  refine
    { nodes_eq := ?_
      displayed_eq := ?_
      linked := ?_
      formula_eq := ?_
      parts := ?_
      ascending := ?_
      bounded := ?_
      mem := ?_ }
  · rw [extensionRight.nodes_link, extensionLeft.nodes_eq, List.append_assoc]
  · rw [displayed_link, extensionRight.displayed_eq, displayed_push,
      extensionLeft.displayed_eq, List.append_assoc, List.append_assoc]
  · rw [formulas_link]
    intro node member
    rcases List.mem_append.mp member with member | member
    · rw [longer]
      exact (extensionLeft.linked node member).append _
    · rcases List.mem_cons.mp member with rfl | member
      · exact .binary shapeEq firstEq extensionRight.formula_eq
      · exact extensionRight.linked node member
  · rw [formulas_link]
    exact extensionRight.formula_pushed
  · rw [formulas_link, Formula.displayedParts_of_binary shapeEq]
    cases shown with
    | false => exact List.rel_append partsLeft extensionRight.parts
    | true =>
        exact List.rel_append partsLeft
          (.cons extensionRight.formula_pushed extensionRight.parts)
  · rw [List.pairwise_append]
    refine ⟨extensionLeft.ascending, extensionRight.ascending_of_pushed, ?_⟩
    intro earlier memberLeft later memberRight
    have leftOfNode := (extensionLeft.bounded earlier memberLeft).2
    have rightOfNode :=
      (extensionRight.bounded_of_pushed later memberRight).1
    omega
  · intro place member
    rw [length_link]
    rcases List.mem_append.mp member with memberLeft | memberRight
    · have ⟨lower, upper⟩ := extensionLeft.bounded place memberLeft
      have within := extensionRight.lt_length_of_pushed
      omega
    · have ⟨lower, upper⟩ :=
        extensionRight.bounded_of_pushed place memberRight
      omega
  · rintro rfl
    exact List.mem_append_right _
      (List.mem_append_left _ (List.mem_singleton_self _))

end Extends
end Decomposition

open Decomposition in
/-- Adding a formula with its parts extends the table by them. -/
theorem Formula.decompose_extends
    {basics : List Formula}
    {formula : Formula}
    {shown : Bool}
    {before after : Decomposition}
    {place : Nat}
    (found : formula.decompose basics shown before = .ok (place, after)) :
    ∃ added places,
      Extends basics formula shown before place after added places := by
  induction formula using Formula.partInduction
    generalizing shown before place after with
  | negation formula symbol operand shapeEq inductionHypothesis =>
      rw [Formula.decompose_of_negation shapeEq] at found
      obtain ⟨⟨inner, finished⟩, foundOperand, rest⟩ :=
        bind_eq_ok.mp found
      cases rest
      obtain ⟨added, places, extension⟩ := inductionHypothesis foundOperand
      exact ⟨_, _, extension.negation shapeEq⟩
  | binary formula symbol connective left right brackets shapeEq
      hypothesisLeft hypothesisRight =>
      rw [Formula.decompose_of_binary shapeEq] at found
      obtain ⟨⟨first, middle⟩, foundLeft, rest⟩ := bind_eq_ok.mp found
      obtain ⟨⟨second, finished⟩, foundRight, rest⟩ :=
        bind_eq_ok.mp rest
      cases rest
      obtain ⟨addedLeft, placesLeft, extensionLeft⟩ :=
        hypothesisLeft foundLeft
      obtain ⟨addedRight, placesRight, extensionRight⟩ :=
        hypothesisRight foundRight
      exact ⟨_, _, extensionLeft.binary shapeEq extensionRight⟩
  | basic formula isBasic =>
      rw [Formula.decompose_of_isBasic isBasic, pushBasic] at found
      cases declared : basics.findIdx? fun basic => basic.same formula with
      | none =>
          rw [declared] at found
          cases found
      | some declaration =>
          rw [declared] at found
          cases found
          exact ⟨_, _, .basic isBasic declared⟩

/-- Taking a formula apart leads to declared basic formulas only. -/
inductive Formula.BottomsOut (basics : List Formula) : Formula -> Prop
  | basic
      {formula : Formula}
      (isBasic : formula.isBasic = true)
      (declared : ∃ basic ∈ basics, basic.same formula = true) :
      BottomsOut basics formula
  | negation
      {formula operand : Formula}
      {symbol : Symbol}
      (shape_eq : formula.shape = .negation symbol operand)
      (bottomsOut : BottomsOut basics operand) :
      BottomsOut basics formula
  | binary
      {formula left right : Formula}
      {symbol : Symbol}
      {connective : Connective}
      {brackets : Option Brackets}
      (shape_eq : formula.shape =
        .binary symbol connective left right brackets)
      (leftBottomsOut : BottomsOut basics left)
      (rightBottomsOut : BottomsOut basics right) :
      BottomsOut basics formula

/-- Such a formula can be added to any table. -/
theorem Formula.BottomsOut.exists_decompose
    {basics : List Formula}
    {formula : Formula}
    (bottomsOut : formula.BottomsOut basics)
    (shown : Bool)
    (before : Decomposition) :
    ∃ result, formula.decompose basics shown before = .ok result := by
  induction bottomsOut generalizing shown before with
  | @basic formula isBasic declared =>
      obtain ⟨basic, member, same⟩ := declared
      rw [Formula.decompose_of_isBasic isBasic, Decomposition.pushBasic]
      cases found : basics.findIdx? fun basic => basic.same formula with
      | none =>
          have noneSame := List.findIdx?_eq_none_iff.mp found basic member
          rw [same] at noneSame
          cases noneSame
      | some place => exact ⟨_, rfl⟩
  | @negation formula operand symbol shapeEq _ inductionHypothesis =>
      rw [Formula.decompose_of_negation shapeEq]
      obtain ⟨⟨inner, added⟩, found⟩ := inductionHypothesis
        (shown && !operand.isAbsorbed)
        (before.push formula (.negation Decomposition.unset) shown)
      exact ⟨_, bind_eq_ok.mpr ⟨_, found, rfl⟩⟩
  | @binary formula left right symbol connective brackets shapeEq _ _
      hypothesisLeft hypothesisRight =>
      rw [Formula.decompose_of_binary shapeEq]
      obtain ⟨⟨first, added⟩, foundLeft⟩ := hypothesisLeft shown before
      obtain ⟨⟨second, finished⟩, foundRight⟩ := hypothesisRight shown
        (added.push formula (.binary connective first Decomposition.unset)
          shown)
      exact ⟨_, bind_eq_ok.mpr
        ⟨_, foundLeft, bind_eq_ok.mpr ⟨_, foundRight, rfl⟩⟩⟩

/-- More declarations do no harm. -/
theorem Formula.BottomsOut.mono
    {basics more : List Formula}
    {formula : Formula}
    (bottomsOut : formula.BottomsOut basics)
    (subset : basics ⊆ more) : formula.BottomsOut more := by
  induction bottomsOut with
  | basic isBasic declared =>
      obtain ⟨basic, member, same⟩ := declared
      exact .basic isBasic ⟨basic, subset member, same⟩
  | negation shapeEq _ inductionHypothesis =>
      exact .negation shapeEq inductionHypothesis
  | binary shapeEq _ _ hypothesisLeft hypothesisRight =>
      exact .binary shapeEq hypothesisLeft hypothesisRight

/-- The basic formulas of any formula can be declared. -/
theorem Formula.exists_bottomsOut (formula : Formula) :
    ∃ basics, formula.BottomsOut basics := by
  induction formula using partInduction with
  | negation formula symbol operand shapeEq inductionHypothesis =>
      obtain ⟨basics, bottomsOut⟩ := inductionHypothesis
      exact ⟨basics, .negation shapeEq bottomsOut⟩
  | binary formula symbol connective left right brackets shapeEq ofLeft ofRight =>
      obtain ⟨basics, leftBottomsOut⟩ := ofLeft
      obtain ⟨others, rightBottomsOut⟩ := ofRight
      exact ⟨basics ++ others, .binary shapeEq
        (leftBottomsOut.mono (List.subset_append_left _ _))
        (rightBottomsOut.mono (List.subset_append_right _ _))⟩
  | basic formula isBasic =>
      exact ⟨[formula], .basic isBasic
        ⟨formula, List.mem_singleton_self _, formula.same_refl⟩⟩

end SymbolicLogic
