import SymbolicLogic.Proofs.Expression.Nodes
import SymbolicLogic.Proofs.Grammar.Exactness
import SymbolicLogic.Proofs.Rendering.Shading

/-!
# Nesting depth of expressions

Each part of an expression is rendered for the depth at which it stands, with two
exceptions. A comparison that is shown by its complement glyph is rendered as if no
bracket were open around it, and the variable in a bracketed quantifier prefix as if the
brackets of the prefix were not open. An expression keeps depth if no bracket is put into
a wrong style by this: the depth that is lost is a multiple of six, or what is rendered
for the wrong depth has no brackets.

The brackets of a pair always look alike, and every bracket has its pair.
-/

namespace SymbolicLogic

open Rendering

/-! ## Expressions that keep depth -/

def TermShape.isLeaf : TermShape -> Bool
  | .leaf .. => true
  | .apply .. | .operation .. => false

def Term.isLeaf (term : Term) : Bool :=
  term.shape.isLeaf

/-- The sides and the glyph of a comparison that is shown by its complement glyph under a
negation. -/
def Formula.absorbed? : Formula -> Option (Term × Symbol × Term)
  | .plain (.comparison _ left right (some complement)) =>
      some (left, complement, right)
  | _ => none

theorem Formula.complementPieces?_eq (formula : Formula) :
    formula.complementPieces? = formula.absorbed?.map fun (left, complement, right) =>
      spaced (left.pieces 0) complement (right.pieces 0) := by
  match formula with
  | .transformed .. => rfl
  | .plain (.comparison _ _ _ complement) => cases complement <;> rfl
  | .plain (.leaf ..) | .plain (.relation ..) | .plain (.complexMeta ..)
  | .plain (.negation ..) | .plain (.binary ..) | .plain (.quantified ..) => rfl

/-- What is absorbed is a comparison with a complement. -/
theorem Formula.exists_of_absorbed?
    {formula : Formula}
    {left right : Term}
    {complement : Symbol}
    (absorbed : formula.absorbed? = some (left, complement, right)) :
    ∃ relation,
      formula = .plain (.comparison relation left right (some complement)) := by
  unfold absorbed? at absorbed
  split at absorbed
  · cases absorbed
    exact ⟨_, rfl⟩
  · cases absorbed

mutual

/-- Inside `depth` brackets, no bracket of the formula is rendered for a depth of another
style than its own. -/
def Formula.keepsDepth (formula : Formula) (depth : Nat) (root : Bool) : Bool :=
  match formula with
  | .plain shape => shape.keepsDepth depth root
  | .transformed shape _ => shape.keepsDepth depth false
termination_by structural formula

def FormulaShape.keepsDepth (shape : FormulaShape) (depth : Nat) (bare : Bool) : Bool :=
  match shape with
  | .leaf .. | .relation .. | .comparison .. | .complexMeta .. => true
  | .negation _ operand =>
      match operand.absorbed? with
      | some (left, _, right) => depth % 6 == 0 || (left.isLeaf && right.isLeaf)
      | none => operand.keepsDepth depth false
  | .binary _ _ left right brackets =>
      let inner := if brackets.isNone && bare then depth else depth + 1
      left.keepsDepth inner false && right.keepsDepth inner false
  | .quantified _ _ boundVariable restriction scope =>
      restriction.keepsDepth depth boundVariable && scope.keepsDepth depth false
termination_by structural shape

def Restriction.keepsDepth
    (restriction : Restriction)
    (depth : Nat)
    (boundVariable : Term) : Bool :=
  match restriction with
  | .unrestricted => true
  | .bounded .. => boundVariable.isLeaf
  | .restricted _ formula _ =>
      boundVariable.isLeaf && formula.keepsDepth (depth + 1) false
termination_by structural restriction

end

/-- No bracket of the expression is rendered for a depth of another style than its
own. -/
def Expression.keepsDepth : Expression -> Bool
  | .formula f => f.keepsDepth 0 true
  | .term _ => true

/-! ## Expressions of a notation -/

namespace Segmentation

/-- The symbol has no brackets in it. -/
def IsFree (cutting : Segmentation) (symbol : Symbol) : Prop :=
  ∀ c ∈ symbol.text.toList, ¬cutting.IsBracket c

instance (cutting : Segmentation) (symbol : Symbol) :
    Decidable (cutting.IsFree symbol) :=
  List.decidableBAll (¬cutting.IsBracket ·) symbol.text.toList

end Segmentation

/-- The symbols of the node have no brackets in them, and its brackets are pairs of the
notation, whatever its parts are. -/
def TermShape.IsNotedIn (shape : TermShape) (cutting : Segmentation) : Prop :=
  match shape with
  | .leaf _ symbol => cutting.IsFree symbol
  | .apply _ symbol _ brackets | .operation symbol _ _ brackets =>
      cutting.IsFree symbol ∧ cutting.IsPair brackets

def Restriction.IsNotedIn (restriction : Restriction) (cutting : Segmentation) : Prop :=
  match restriction with
  | .unrestricted => True
  | .bounded relation _ brackets => cutting.IsFree relation ∧ cutting.IsPair brackets
  | .restricted divider _ brackets => cutting.IsFree divider ∧ cutting.IsPair brackets

/-- The symbols of the node have no brackets in them, and its brackets are pairs of the
notation, whatever its parts are. Where a binary formula has none it is written in round
ones. -/
def FormulaShape.IsNotedIn (shape : FormulaShape) (cutting : Segmentation) : Prop :=
  match shape with
  | .leaf _ symbol | .relation symbol _ | .negation symbol _ => cutting.IsFree symbol
  | .comparison symbol _ _ complement =>
      cutting.IsFree symbol ∧ ∀ glyph ∈ complement, cutting.IsFree glyph
  | .complexMeta symbol _ brackets => cutting.IsFree symbol ∧ cutting.IsPair brackets
  | .binary symbol _ _ _ brackets =>
      cutting.IsFree symbol ∧ cutting.IsPair (brackets.getD .round)
  | .quantified symbol _ _ restriction _ =>
      cutting.IsFree symbol ∧ restriction.IsNotedIn cutting

namespace Expression

def IsNotedIn (expression : Expression) (cutting : Segmentation) : Prop :=
  match expression with
  | .formula f => f.shape.IsNotedIn cutting
  | .term t => t.shape.IsNotedIn cutting

/-- No substitution is pending, no symbol has brackets in it, and all brackets are pairs
of the notation. -/
def IsNoted (expression : Expression) (cutting : Segmentation) : Prop :=
  expression.Everywhere fun node =>
    node.transform? = none ∧ node.IsNotedIn cutting

end Expression

/-! ## Pieces -/

theorem TextRun.marks_enclosed
    (brackets : Brackets)
    (depth : Nat)
    (runs : List TextRun) :
    marks (enclosed brackets depth runs) =
      (.ofDepth depth, brackets.opening) :: marks runs ++
        [(.ofDepth depth, brackets.closing)] := by
  simp [enclosed, bracket, marks_cons]

namespace Segmentation

/-- The brackets of the runs are nested, and inside `outer` others each has the style of
its depth exactly under the condition. -/
structure IsShadedIff
    (cutting : Segmentation)
    (outer : Nat)
    (condition : Prop)
    (runs : List TextRun) : Prop where
  nested : cutting.IsNested (TextRun.marks runs)
  shaded_iff : cutting.ShadedFrom outer (TextRun.marks runs) ↔ condition

variable {cutting : Segmentation} {outer depth : Nat} {condition condition' : Prop}
  {runs runs' : List TextRun} {items : List (List TextRun)} {brackets : Brackets}
  {s : Symbol}

theorem IsPair.isOpening (pair : cutting.IsPair brackets) :
    cutting.IsOpening brackets.opening :=
  classOf_eq_opening_iff.mp pair.opens

theorem IsPair.isClosing (pair : cutting.IsPair brackets) :
    cutting.IsClosing brackets.closing :=
  classOf_eq_closing_iff.mp pair.closes

theorem not_isBracket_of_isBlank
    {c : Char}
    (blank : Text.isBlank c = true) : ¬cutting.IsBracket c := by
  intro bracket
  have solid : Text.isBlank c = false := bracket.elim And.left And.left
  rw [blank] at solid
  cases solid

namespace IsShadedIff

theorem congr
    (shaded : cutting.IsShadedIff outer condition runs)
    (same : condition ↔ condition') : cutting.IsShadedIff outer condition' runs :=
  ⟨shaded.nested, shaded.shaded_iff.trans same⟩

/-- Nesting does not depend on what is around the runs. -/
theorem elsewhere (shaded : cutting.IsShadedIff outer condition runs) (outer' : Nat) :
    cutting.IsShadedIff outer' (cutting.ShadedFrom outer' (TextRun.marks runs)) runs :=
  ⟨shaded.nested, Iff.rfl⟩

theorem of_free (free : ∀ mark ∈ TextRun.marks runs, ¬cutting.IsBracket mark.2) :
    cutting.IsShadedIff outer True runs :=
  ⟨.of_free free, iff_true_intro (shadedFrom_of_free free)⟩

theorem word
    {run : TextRun}
    (free : ∀ c ∈ run.text.toList, ¬cutting.IsBracket c) :
    cutting.IsShadedIff outer True [run] :=
  of_free <| by simpa [TextRun.marks_cons] using free

theorem symbol
    (free : cutting.IsFree s)
    (style : Style) : cutting.IsShadedIff outer True [symbol style s] :=
  word free

theorem blank : cutting.IsShadedIff outer True [space] :=
  word fun c member => by
    obtain rfl : c = ' ' := by simpa [space] using member
    exact not_isBracket_of_isBlank (by decide)

/-- Pieces are shaded if their parts are. -/
theorem append
    (shaded : cutting.IsShadedIff outer condition runs)
    (shaded' : cutting.IsShadedIff outer condition' runs') :
    cutting.IsShadedIff outer (condition ∧ condition') (runs ++ runs') where
  nested := by
    rw [TextRun.marks_append]
    exact shaded.nested.append shaded'.nested
  shaded_iff := by
    rw [TextRun.marks_append,
      shadedFrom_append (congrArg (outer + ·) shaded.nested.settled),
      shaded.shaded_iff, shaded'.shaded_iff]

/-- Brackets are shaded if they have the style of their depth and so has what is inside. -/
theorem enclosed
    (pair : cutting.IsPair brackets)
    (depth : Nat)
    (shaded : cutting.IsShadedIff (outer + 1) condition runs) :
    cutting.IsShadedIff outer (depth % 6 = outer % 6 ∧ condition)
      (enclosed brackets depth runs) where
  nested := by
    rw [TextRun.marks_enclosed]
    exact shaded.nested.enclosed pair.isOpening pair.isClosing _
  shaded_iff := by
    rw [TextRun.marks_enclosed,
      shadedFrom_enclosed pair.isOpening pair.isClosing shaded.nested,
      Style.ofDepth_inj, shaded.shaded_iff]

theorem spaced
    (free : cutting.IsFree s)
    (shaded : cutting.IsShadedIff outer condition runs)
    (shaded' : cutting.IsShadedIff outer condition' runs') :
    cutting.IsShadedIff outer (condition ∧ condition') (spaced runs s runs') :=
  have operator : cutting.IsShadedIff outer True
      [space, Rendering.symbol .operator s, space] :=
    (blank.append ((symbol free .operator).append blank)).congr (by simp)
  ((shaded.append operator).append shaded').congr (by simp)

theorem flatten (shaded : ∀ item ∈ items, cutting.IsShadedIff outer True item) :
    cutting.IsShadedIff outer True items.flatten := by
  induction items with
  | nil => exact of_free nofun
  | cons item items inductionHypothesis =>
      obtain ⟨first, others⟩ := List.forall_mem_cons.mp shaded
      exact (first.append (inductionHypothesis others)).congr (by simp)

theorem separated
    (comma : ¬cutting.IsBracket ',')
    (shaded : ∀ item ∈ items, cutting.IsShadedIff outer True item) :
    cutting.IsShadedIff outer True (separated items) := by
  have separator : cutting.IsShadedIff outer True [punctuation ", "] :=
    word fun c member => by
      rcases (by simpa [punctuation] using member : c = ',' ∨ c = ' ') with rfl | rfl
      · exact comma
      · exact not_isBracket_of_isBlank (by decide)
  induction items with
  | nil => exact of_free nofun
  | cons item items inductionHypothesis =>
      obtain ⟨first, others⟩ := List.forall_mem_cons.mp shaded
      cases items with
      | nil => simpa [Rendering.separated] using first
      | cons next items =>
          exact (first.append (separator.append (inductionHypothesis others))).congr
            (by simp)

/-- A symbol with a list of arguments. -/
theorem application
    (comma : ¬cutting.IsBracket ',')
    (free : cutting.IsFree s)
    (style : Style)
    (pair : cutting.IsPair brackets)
    (depth : Nat)
    (shaded : ∀ item ∈ items, cutting.IsShadedIff (outer + 1) True item) :
    cutting.IsShadedIff outer (depth % 6 = outer % 6)
      (Rendering.symbol style s ::
        Rendering.enclosed brackets depth (Rendering.separated items)) :=
  ((symbol free style).append (enclosed pair depth (separated comma shaded))).congr
    (by simp)

end IsShadedIff
end Segmentation

/-! ## Terms -/

section

open Segmentation

variable {cutting : Segmentation}

mutual

/-- For a depth with the style of the one at which it stands, a term is shaded. -/
theorem Term.isShaded
    (comma : ¬cutting.IsBracket ',')
    (term : Term)
    (noted : (Expression.term term).IsNoted cutting)
    (outer depth : Nat)
    (alike : depth % 6 = outer % 6) :
    cutting.IsShadedIff outer True (term.pieces depth) := by
  match term with
  | .plain shape => exact TermShape.isShaded comma shape noted outer depth alike
  | .transformed .. => cases noted.whole.1

theorem TermShape.isShaded
    (comma : ¬cutting.IsBracket ',')
    (shape : TermShape)
    (noted : (Expression.term (.plain shape)).IsNoted cutting)
    (outer depth : Nat)
    (alike : depth % 6 = outer % 6) :
    cutting.IsShadedIff outer True (shape.pieces depth) := by
  have deeper : (depth + 1) % 6 = (outer + 1) % 6 := by omega
  match shape with
  | .leaf kind symbol => exact .word noted.whole.2
  | .apply head symbol args brackets =>
      obtain ⟨free, pair⟩ := noted.whole.2
      have inner := Term.isShaded_all comma args (List.forall_mem_map.mp noted.parts)
        (outer + 1) (depth + 1) deeper
      exact (IsShadedIff.application comma free _ pair depth inner).congr
        (by simp [alike])
  | .operation symbol left right brackets =>
      obtain ⟨free, pair⟩ := noted.whole.2
      obtain ⟨notedLeft, notedRight⟩ := List.forall_mem_cons.mp noted.parts
      have lefts := left.isShaded comma notedLeft (outer + 1) (depth + 1) deeper
      have rights := right.isShaded comma (notedRight _ List.mem_cons_self) (outer + 1)
        (depth + 1) deeper
      exact (IsShadedIff.enclosed pair depth (.spaced free lefts rights)).congr
        (by simp [alike])

theorem Term.isShaded_all
    (comma : ¬cutting.IsBracket ',')
    (terms : List Term)
    (noted : ∀ term ∈ terms, (Expression.term term).IsNoted cutting)
    (outer depth : Nat)
    (alike : depth % 6 = outer % 6) :
    ∀ item ∈ Term.piecesOfAll terms depth, cutting.IsShadedIff outer True item := by
  match terms with
  | [] => exact nofun
  | term :: terms =>
      obtain ⟨first, others⟩ := List.forall_mem_cons.mp noted
      exact List.forall_mem_cons.mpr
        ⟨term.isShaded comma first outer depth alike,
          Term.isShaded_all comma terms others outer depth alike⟩

end

/-- For a depth of another style, only a term without brackets is shaded. -/
theorem TermShape.isShadedIff
    (comma : ¬cutting.IsBracket ',')
    (shape : TermShape)
    (noted : (Expression.term (.plain shape)).IsNoted cutting)
    (outer depth : Nat) :
    cutting.IsShadedIff outer (depth % 6 = outer % 6 ∨ shape.isLeaf = true)
      (shape.pieces depth) := by
  by_cases alike : depth % 6 = outer % 6
  · exact (shape.isShaded comma noted outer depth alike).congr (by simp [alike])
  -- The outermost brackets have a wrong style, whatever is inside them.
  match shape with
  | .leaf kind s => exact (IsShadedIff.symbol noted.whole.2 _).congr (by simp [isLeaf])
  | .apply head s args brackets =>
      obtain ⟨free, pair⟩ := noted.whole.2
      have inner := IsShadedIff.separated comma
        (Term.isShaded_all comma args (List.forall_mem_map.mp noted.parts) (depth + 1)
          (depth + 1) rfl)
      exact (IsShadedIff.append (.symbol free _)
        (.enclosed pair depth (inner.elsewhere _))).congr (by simp [alike, isLeaf])
  | .operation s left right brackets =>
      obtain ⟨free, pair⟩ := noted.whole.2
      obtain ⟨notedLeft, notedRight⟩ := List.forall_mem_cons.mp noted.parts
      have inner := IsShadedIff.spaced free
        (left.isShaded comma notedLeft (depth + 1) (depth + 1) rfl)
        (right.isShaded comma (notedRight _ List.mem_cons_self) (depth + 1) (depth + 1)
          rfl)
      exact (IsShadedIff.enclosed pair depth (inner.elsewhere _)).congr
        (by simp [alike, isLeaf])

theorem Term.isShadedIff
    (comma : ¬cutting.IsBracket ',')
    (term : Term)
    (noted : (Expression.term term).IsNoted cutting)
    (outer depth : Nat) :
    cutting.IsShadedIff outer (depth % 6 = outer % 6 ∨ term.isLeaf = true)
      (term.pieces depth) := by
  cases term with
  | plain shape => exact shape.isShadedIff comma noted outer depth
  | transformed => cases noted.whole.1

/-! ## Formulas -/

mutual

/-- The rendering of a formula is shaded exactly if no comparison under a negation loses
its depth. -/
theorem Formula.isShadedIff
    (comma : ¬cutting.IsBracket ',')
    (formula : Formula)
    (noted : (Expression.formula formula).IsNoted cutting)
    (depth : Nat)
    (root : Bool) :
    cutting.IsShadedIff depth (formula.keepsDepth depth root = true)
      (formula.pieces depth root) := by
  match formula with
  | .plain shape => exact FormulaShape.isShadedIff comma shape noted depth root
  | .transformed .. => cases noted.whole.1

theorem FormulaShape.isShadedIff
    (comma : ¬cutting.IsBracket ',')
    (shape : FormulaShape)
    (noted : (Expression.formula (.plain shape)).IsNoted cutting)
    (depth : Nat)
    (bare : Bool) :
    cutting.IsShadedIff depth (shape.keepsDepth depth bare = true)
      (shape.pieces depth bare) := by
  match shape with
  | .leaf kind s =>
      exact (IsShadedIff.symbol noted.whole.2 _).congr (by simp [FormulaShape.keepsDepth])
  | .relation s args =>
      have listed := Term.isShaded_all comma args (List.forall_mem_map.mp noted.parts)
        depth depth rfl
      exact (IsShadedIff.append (.symbol noted.whole.2 _) (.flatten listed)).congr
        (by simp [FormulaShape.keepsDepth])
  | .comparison s left right complement =>
      obtain ⟨free, -⟩ := noted.whole.2
      obtain ⟨notedLeft, notedRight⟩ := List.forall_mem_cons.mp noted.parts
      exact (IsShadedIff.spaced free (left.isShaded comma notedLeft depth depth rfl)
        (right.isShaded comma (notedRight _ List.mem_cons_self) depth depth rfl)).congr
        (by simp [FormulaShape.keepsDepth])
  | .complexMeta s params brackets =>
      obtain ⟨free, pair⟩ := noted.whole.2
      have inner := Term.isShaded_all comma params (List.forall_mem_map.mp noted.parts)
        (depth + 1) (depth + 1) rfl
      exact (IsShadedIff.application comma free _ pair depth inner).congr
        (by simp [FormulaShape.keepsDepth])
  | .negation s operand =>
      have notedOperand := noted.parts (.formula operand) List.mem_cons_self
      simp only [FormulaShape.pieces, FormulaShape.keepsDepth,
        operand.complementPieces?_eq]
      cases absorbed : operand.absorbed? with
      | none =>
          exact (IsShadedIff.append (.symbol noted.whole.2 _)
            (operand.isShadedIff comma notedOperand depth false)).congr (by simp)
      | some sides =>
          obtain ⟨left, complement, right⟩ := sides
          obtain ⟨relation, rfl⟩ := Formula.exists_of_absorbed? absorbed
          obtain ⟨-, free⟩ := notedOperand.whole.2
          obtain ⟨notedLeft, notedRight⟩ := List.forall_mem_cons.mp notedOperand.parts
          -- The sides are rendered for depth zero, wherever they stand.
          have lefts := left.isShadedIff comma notedLeft depth 0
          have rights := right.isShadedIff comma (notedRight _ List.mem_cons_self) depth 0
          have begins : 0 % 6 = depth % 6 ↔ depth % 6 = 0 := eq_comm
          refine (IsShadedIff.spaced (free complement rfl) lefts rights).congr ?_
          rw [begins, ← or_and_left]
          simp
  | .binary s connective left right brackets =>
      obtain ⟨free, pair⟩ := noted.whole.2
      obtain ⟨notedLeft, notedRight⟩ := List.forall_mem_cons.mp noted.parts
      have sides := fun inner => IsShadedIff.spaced free
        (left.isShadedIff comma notedLeft inner false)
        (right.isShadedIff comma (notedRight _ List.mem_cons_self) inner false)
      have within := IsShadedIff.enclosed pair depth (sides (depth + 1))
      cases brackets with
      | some brackets => exact within.congr (by simp [FormulaShape.keepsDepth])
      | none =>
          cases bare with
          | false => exact within.congr (by simp [FormulaShape.keepsDepth])
          | true => exact (sides depth).congr (by simp [FormulaShape.keepsDepth])
  | .quantified s quantifier boundVariable restriction scope =>
      obtain ⟨free, notedPrefix⟩ := noted.whole.2
      obtain ⟨notedVariable, notedOthers⟩ := List.forall_mem_cons.mp noted.parts
      obtain ⟨notedParts, notedScope⟩ := List.forall_mem_append.mp notedOthers
      exact (IsShadedIff.append
        (restriction.isShadedIff comma notedPrefix notedParts free notedVariable depth)
        (scope.isShadedIff comma (notedScope _ List.mem_cons_self) depth false)).congr
        (by simp [FormulaShape.keepsDepth])

/-- A quantifier prefix, with the variable rendered for the depth of the prefix. -/
theorem Restriction.isShadedIff
    (comma : ¬cutting.IsBracket ',')
    (restriction : Restriction)
    (noted : restriction.IsNotedIn cutting)
    (notedParts : ∀ part ∈ FormulaShape.restrictionChildren restriction,
      part.IsNoted cutting)
    {s : Symbol}
    (free : cutting.IsFree s)
    {boundVariable : Term}
    (notedVariable : (Expression.term boundVariable).IsNoted cutting)
    (depth : Nat) :
    cutting.IsShadedIff depth (restriction.keepsDepth depth boundVariable = true)
      (restriction.pieces depth (symbol .operator s :: boundVariable.pieces depth)) := by
  have quantifier : cutting.IsShadedIff (depth + 1) (boundVariable.isLeaf = true)
      (symbol .operator s :: boundVariable.pieces depth) := by
    have lost : depth % 6 ≠ (depth + 1) % 6 := by omega
    exact (IsShadedIff.append (.symbol free _)
      (boundVariable.isShadedIff comma notedVariable (depth + 1) depth)).congr
      (by simp [lost])
  match restriction with
  | .unrestricted =>
      exact (IsShadedIff.append (.symbol free _)
        (boundVariable.isShaded comma notedVariable depth depth rfl)).congr
        (by simp [Restriction.keepsDepth])
  | .bounded relation bound brackets =>
      obtain ⟨freeRelation, pair⟩ := noted
      have bounds := bound.isShaded comma (notedParts _ List.mem_cons_self) (depth + 1)
        (depth + 1) rfl
      have inside := IsShadedIff.spaced freeRelation quantifier bounds
      exact (IsShadedIff.enclosed pair depth inside).congr
        (by simp [Restriction.keepsDepth])
  | .restricted divider formula brackets =>
      obtain ⟨freeDivider, pair⟩ := noted
      have inner := formula.isShadedIff comma (notedParts _ List.mem_cons_self)
        (depth + 1) false
      have divided := quantifier.append
        ((IsShadedIff.symbol freeDivider .punctuation).append .blank)
      exact (IsShadedIff.enclosed pair depth (divided.append inner)).congr
        (by simp [Restriction.keepsDepth])

end

/-- The rendering of an expression is shaded exactly if its depth is kept throughout. -/
theorem Expression.isShadedIff
    (comma : ¬cutting.IsBracket ',')
    (expression : Expression)
    (noted : expression.IsNoted cutting) :
    cutting.IsShadedIff 0 (expression.keepsDepth = true) expression.pieces := by
  cases expression with
  | formula f => exact f.isShadedIff comma noted 0 true
  | term t => exact (t.isShaded comma noted 0 0 rfl).congr (by simp [keepsDepth])

end

/-! ## A sum inside a conjunction -/

namespace Language

/-- The formula behind the letter `P`, in brackets. -/
def letterAnd (second : Formula) : Formula :=
  .plain (.binary ⟨"∧", .connective⟩ .conjunction
    (.leaf .letter ⟨"P", .sentenceLetter⟩) second (some .round))

/-- `(a + b) = c` or, under a negation, `(a + b) ≠ c`. -/
def sumComparison (complement : Option Symbol) : Formula :=
  .plain (.comparison ⟨"=", .infixRelation⟩
    (.plain (.operation ⟨"+", .infixFunction⟩ (.leaf .constant ⟨"a", .constant⟩)
      (.leaf .constant ⟨"b", .constant⟩) .round))
    (.leaf .constant ⟨"c", .constant⟩) complement)

theorem isPair_round : predicate.segmentation.IsPair .round :=
  ⟨by decide +kernel, by decide +kernel⟩

theorem isNoted_letterAnd
    {second : Formula}
    (noted : (Expression.formula second).IsNoted predicate.segmentation) :
    (Expression.formula (letterAnd second)).IsNoted predicate.segmentation := by
  have free : predicate.segmentation.IsFree ⟨"P", .sentenceLetter⟩ := by
    decide +kernel
  exact .of_parts ⟨rfl, by decide +kernel, isPair_round⟩ (List.forall_mem_cons.mpr
    ⟨.of_parts ⟨rfl, free⟩ nofun, List.forall_mem_singleton.mpr noted⟩)

theorem isNoted_sumComparison
    {complement : Option Symbol}
    (free : ∀ glyph ∈ complement, predicate.segmentation.IsFree glyph) :
    (Expression.formula (sumComparison complement)).IsNoted predicate.segmentation := by
  have constant : ∀ s, predicate.segmentation.IsFree s ->
      (Expression.term (.leaf .constant s)).IsNoted predicate.segmentation :=
    fun s free => .of_parts ⟨rfl, free⟩ nofun
  have sum : (Expression.term (.plain (.operation ⟨"+", .infixFunction⟩
      (.leaf .constant ⟨"a", .constant⟩) (.leaf .constant ⟨"b", .constant⟩)
      .round))).IsNoted predicate.segmentation :=
    .of_parts ⟨rfl, by decide +kernel, isPair_round⟩ (List.forall_mem_cons.mpr
      ⟨constant _ (by decide +kernel),
        List.forall_mem_singleton.mpr (constant _ (by decide +kernel))⟩)
  exact .of_parts ⟨rfl, by decide +kernel, free⟩ (List.forall_mem_cons.mpr
    ⟨sum, List.forall_mem_singleton.mpr (constant _ (by decide +kernel))⟩)

end Language

/-! ## Runs -/

/-- In the runs of an expression without pending substitutions, no bracket is unmatched
and the brackets of a pair look alike. The styles of all brackets follow nesting depth
exactly if the expression keeps depth. -/
theorem Expression.runs_follow_depth_iff
    {cutting : Segmentation}
    (comma : ¬cutting.IsBracket ',')
    (expression : Expression)
    (noted : expression.IsNoted cutting) :
    cutting.Balanced expression.text.toList ∧
      cutting.PairsAlike (TextRun.marks expression.runs) ∧
      (cutting.FollowsDepth (TextRun.marks expression.runs) ↔
        expression.keepsDepth = true) := by
  obtain ⟨nested, shaded_iff⟩ := expression.isShadedIff comma noted
  rw [runs, TextRun.marks_merge]
  refine ⟨?_, (nested []).pairsAlike, nested.followsDepth_iff.trans shaded_iff⟩
  have balanced := nested.balanced
  rwa [TextRun.map_marks] at balanced

namespace Language

/-- The brackets of `(P ∧ (a + b) = c)` have the styles of their depths. -/
theorem runs_follow_depth_sum :
    ¬predicate.segmentation.IsBracket ',' ∧
      (Expression.formula (letterAnd (sumComparison none))).IsNoted
        predicate.segmentation ∧
      (Expression.formula (letterAnd (sumComparison none))).keepsDepth = true ∧
      predicate.segmentation.FollowsDepth
        (TextRun.marks (Expression.formula (letterAnd (sumComparison none))).runs) := by
  have comma : ¬predicate.segmentation.IsBracket ',' := by decide +kernel
  have noted : (Expression.formula (letterAnd (sumComparison none))).IsNoted
      predicate.segmentation := isNoted_letterAnd (isNoted_sumComparison nofun)
  exact ⟨comma, noted, rfl, (Expression.runs_follow_depth_iff comma _ noted).2.2.mpr rfl⟩

open Grammar in
/-- The inner brackets of `(P ∧ (a + b) ≠ c)` have the style of those around them. -/
theorem runs_follow_depth_complement :
    let whole := letterAnd (.plain (.negation ⟨"~", .connective⟩
      (sumComparison (some ⟨"≠", .infixRelation⟩))))
    predicate.parseFormula "(P ∧ (a + b) ≠ c)" = .ok whole ∧
      (Expression.formula whole).IsNoted predicate.segmentation ∧
      ¬predicate.segmentation.FollowsDepth
        (TextRun.marks (Expression.formula whole).runs) := by
  intro whole
  have lexes : predicate.tokens "(P ∧ (a + b) ≠ c)" =
      .ok [.opening .round, .letter ⟨"P", .sentenceLetter⟩,
        .connective ⟨"∧", .connective⟩ .conjunction, .opening .round,
        .constant ⟨"a", .constant⟩, .infixFunction ⟨"+", .infixFunction⟩,
        .constant ⟨"b", .constant⟩, .closing .round,
        .complement ⟨"=", .infixRelation⟩ ⟨"≠", .infixRelation⟩,
        .constant ⟨"c", .constant⟩, .closing .round] := by rfl
  have sum := TermDerivation.operation ⟨"+", .infixFunction⟩ .round
    (.bare (.leaf .constant ⟨"a", .constant⟩)) (.bare (.leaf .constant ⟨"b", .constant⟩))
  have read : predicate.parseFormula "(P ∧ (a + b) ≠ c)" = .ok whole :=
    (parseFormula_eq_ok_iff lexes).mpr ⟨.bracketed (.bare (.binary _ _ .round
      (.bare (.leaf .letter _)) (.bare (.complemented _ _ sum (.leaf .constant _))))),
      trivial, trivial⟩
  have negation : predicate.segmentation.IsFree ⟨"~", .connective⟩ := by decide +kernel
  have free : ∀ glyph ∈ some (⟨"≠", .infixRelation⟩ : Symbol),
      predicate.segmentation.IsFree glyph := by
    rintro _ ⟨⟩
    decide +kernel
  refine ⟨read, isNoted_letterAnd (.of_parts ⟨rfl, negation⟩
    (List.forall_mem_singleton.mpr (isNoted_sumComparison free))), fun follows => ?_⟩
  have marksEq : TextRun.marks (Expression.formula whole).runs =
      [(.ofDepth 0, '('), (.letter, 'P'), (.plain, ' '), (.operator, '∧'),
        (.plain, ' ')] ++ (.ofDepth 0, '(') :: [(.term, 'a'), (.plain, ' '),
        (.operator, '+'), (.plain, ' '), (.term, 'b'), (.ofDepth 0, ')'), (.plain, ' '),
        (.operator, '≠'), (.plain, ' '), (.term, 'c'), (.ofDepth 0, ')')] := by
    decide +kernel
  obtain ⟨depth, inside, styleEq⟩ :=
    follows.shaded _ _ _ _ marksEq (.inl (by decide +kernel))
  have inside : depth + predicate.segmentation.closings "(P ∧ (".toList =
    predicate.segmentation.openings "(P ∧ ".toList := inside
  have opened : predicate.segmentation.openings "(P ∧ ".toList = 1 := by decide +kernel
  have closed : predicate.segmentation.closings "(P ∧ (".toList = 0 := by decide +kernel
  obtain rfl : depth = 1 := by omega
  exact absurd styleEq (by decide)

end Language
end SymbolicLogic
