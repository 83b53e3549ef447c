import SymbolicLogic.Proofs.Header.Lossless
import SymbolicLogic.Proofs.Header.Runs
import SymbolicLogic.Rendering.Expression

/-!
# Shading of brackets

Runs show brackets in the styles of depths. They follow nesting if the style of each
bracket is that of the number of brackets around it. Then the brackets of a pair look
alike, and a bracket never looks like the one that it stands directly inside.

Two readings from left to right tell this. One keeps the styles of the brackets that are
open on a stack: it ends with the stack that it began with if every bracket is closed by
one of its own style, whatever that style is. The other one begins inside a number of
brackets, and compares each style with its depth.
-/

namespace SymbolicLogic

open Rendering

/-- Depths that differ by a multiple of six share a style. -/
theorem Style.ofDepth_inj {depth depth' : Nat} :
    Style.ofDepth depth = Style.ofDepth depth' ↔ depth % 6 = depth' % 6 := by
  simp [Style.ofDepth, Fin.ext_iff, Fin.ofNat]

namespace Segmentation

def IsBracket (cutting : Segmentation) (c : Char) : Prop :=
  cutting.IsOpening c ∨ cutting.IsClosing c

instance (cutting : Segmentation) (c : Char) : Decidable (cutting.IsBracket c) :=
  inferInstanceAs (Decidable (_ ∨ _))

/-- A bracket looks like the one that closes it. -/
def PairsAlike (cutting : Segmentation) (marks : List (Style × Char)) : Prop :=
  ∀ before opening inner closing after style style',
    marks = before ++ (style, opening) :: inner ++ (style', closing) :: after ->
    cutting.IsOpening opening -> cutting.IsClosing closing ->
    cutting.Balanced (inner.map Prod.snd) -> style' = style

/-- The styles of brackets follow nesting depth. -/
structure FollowsDepth
    (cutting : Segmentation)
    (marks : List (Style × Char)) : Prop where
  /-- A bracket has the style of the number of brackets around it. -/
  shaded : ∀ before style c after, marks = before ++ (style, c) :: after ->
    cutting.IsBracket c ->
    ∃ depth, cutting.IsInside depth (before.map Prod.snd) c ∧ style = .ofDepth depth
  alike : cutting.PairsAlike marks
  /-- A bracket that is opened directly inside another one looks different. -/
  inner_ne : ∀ before outer between inner after style style',
    marks = before ++ (style, outer) :: between ++ (style', inner) :: after ->
    cutting.IsOpening outer -> cutting.IsOpening inner ->
    cutting.Balanced (between.map Prod.snd) -> style' ≠ style

/-- With brackets of the given styles open in front of the marks, the last one opened
coming first, each closing bracket has the style of the bracket that it closes, and the
second list is left open. -/
inductive Nests (cutting : Segmentation) :
    List Style -> List (Style × Char) -> List Style -> Prop
  | nil (styles : List Style) : Nests cutting styles [] styles
  | opening
      {c : Char}
      {style : Style}
      {styles styles' : List Style}
      {marks : List (Style × Char)}
      (opens : cutting.IsOpening c)
      (others : Nests cutting (style :: styles) marks styles') :
      Nests cutting styles ((style, c) :: marks) styles'
  | closing
      {c : Char}
      {style : Style}
      {styles styles' : List Style}
      {marks : List (Style × Char)}
      (closes : cutting.IsClosing c)
      (others : Nests cutting styles marks styles') :
      Nests cutting (style :: styles) ((style, c) :: marks) styles'
  | other
      {c : Char}
      {style : Style}
      {styles styles' : List Style}
      {marks : List (Style × Char)}
      (free : ¬cutting.IsBracket c)
      (others : Nests cutting styles marks styles') :
      Nests cutting styles ((style, c) :: marks) styles'

/-- Brackets are opened and closed inside the marks, each one by one of its own
style. -/
def IsNested (cutting : Segmentation) (marks : List (Style × Char)) : Prop :=
  ∀ styles, cutting.Nests styles marks styles

/-- With `outer` brackets open in front of the marks, each bracket has the style of its
depth. -/
def ShadedFrom
    (cutting : Segmentation)
    (outer : Nat)
    (marks : List (Style × Char)) : Prop :=
  ∀ before style c after, marks = before ++ (style, c) :: after ->
    cutting.IsBracket c ->
    ∃ depth, depth + cutting.closings (before.map Prod.snd ++ [c]) =
        outer + cutting.openings (before.map Prod.snd) ∧
      style = .ofDepth depth

variable {cutting : Segmentation} {c opening closing : Char} {style : Style}
  {styles styles' outside : List Style} {marks left right : List (Style × Char)}
  {outer outer' depth : Nat}

theorem openings_of_free (free : ¬cutting.IsBracket c) : cutting.openings [c] = 0 := by
  rw [openings_singleton, if_neg fun opens => free (.inl opens)]

theorem closings_of_free (free : ¬cutting.IsBracket c) : cutting.closings [c] = 0 := by
  rw [closings_singleton, if_neg fun closes => free (.inr closes)]

namespace Nests

/-- Nesting goes through the stack between two parts. -/
theorem append_iff :
    cutting.Nests styles (left ++ right) styles' ↔
      ∃ between, cutting.Nests styles left between ∧
        cutting.Nests between right styles' := by
  constructor
  · intro nests
    induction left generalizing styles with
    | nil => exact ⟨styles, .nil styles, nests⟩
    | cons mark left inductionHypothesis =>
        cases nests with
        | opening opens others =>
            obtain ⟨between, first, second⟩ := inductionHypothesis others
            exact ⟨between, .opening opens first, second⟩
        | closing closes others =>
            obtain ⟨between, first, second⟩ := inductionHypothesis others
            exact ⟨between, .closing closes first, second⟩
        | other free others =>
            obtain ⟨between, first, second⟩ := inductionHypothesis others
            exact ⟨between, .other free first, second⟩
  · rintro ⟨between, first, second⟩
    induction first with
    | nil => exact second
    | opening opens _ inductionHypothesis =>
        exact .opening opens (inductionHypothesis second)
    | closing closes _ inductionHypothesis =>
        exact .closing closes (inductionHypothesis second)
    | other free _ inductionHypothesis =>
        exact .other free (inductionHypothesis second)

/-- The stack grows by the brackets that are opened and not closed. -/
theorem length_add_closings (nests : cutting.Nests styles marks styles') :
    styles'.length + cutting.closings (marks.map Prod.snd) =
      styles.length + cutting.openings (marks.map Prod.snd) := by
  induction nests with
  | nil => rfl
  | opening opens _ inductionHypothesis =>
      rw [List.map_cons, openings_cons, closings_cons, openings_of_isOpening opens,
        closings_of_isOpening opens]
      rw [List.length_cons] at inductionHypothesis
      omega
  | closing closes _ inductionHypothesis =>
      rw [List.map_cons, openings_cons, closings_cons, openings_of_isClosing closes,
        closings_of_isClosing closes, List.length_cons]
      omega
  | other free _ inductionHypothesis =>
      rw [List.map_cons, openings_cons, closings_cons, openings_of_free free,
        closings_of_free free]
      omega

/-- Brackets that are not closed stay at the bottom of the stack. -/
theorem suffix
    (nests : cutting.Nests styles marks styles')
    (below : outside <:+ styles)
    (opened : ∀ front, front <+: marks.map Prod.snd ->
      outside.length + cutting.closings front ≤
        styles.length + cutting.openings front) :
    outside <:+ styles' := by
  induction nests with
  | nil => exact below
  | @opening c style styles _ marks opens _ inductionHypothesis =>
      refine inductionHypothesis (below.trans (List.suffix_cons _ _))
        fun front inside => ?_
      have enough := opened (c :: front) ((List.prefix_cons_inj c).mpr inside)
      rw [openings_cons, closings_cons, openings_of_isOpening opens,
        closings_of_isOpening opens] at enough
      rw [List.length_cons]
      omega
  | @closing c style styles _ marks closes _ inductionHypothesis =>
      have enough := opened [c] (List.prefix_append _ _)
      rw [openings_of_isClosing closes, closings_of_isClosing closes,
        List.length_cons] at enough
      -- The bracket that is closed is not one of those outside.
      have below : outside <:+ styles :=
        (List.suffix_cons_iff.mp below).resolve_left fun whole => by
          rw [whole, List.length_cons] at enough
          omega
      refine inductionHypothesis below fun front inside => ?_
      have enough := opened (c :: front) ((List.prefix_cons_inj c).mpr inside)
      rw [openings_cons, closings_cons, openings_of_isClosing closes,
        closings_of_isClosing closes, List.length_cons] at enough
      omega
  | @other c style styles _ marks free _ inductionHypothesis =>
      refine inductionHypothesis below fun front inside => ?_
      have enough := opened (c :: front) ((List.prefix_cons_inj c).mpr inside)
      rwa [openings_cons, closings_cons, openings_of_free free,
        closings_of_free free, Nat.zero_add, Nat.zero_add] at enough

/-- Balanced text leaves the stack as it is. -/
theorem eq_of_balanced
    (nests : cutting.Nests styles marks styles')
    (balanced : cutting.Balanced (marks.map Prod.snd)) : styles' = styles := by
  have length := nests.length_add_closings
  rw [balanced.settled] at length
  have below : styles <:+ styles' :=
    nests.suffix List.suffix_rfl fun front inside =>
      Nat.add_le_add_left (balanced.opened front inside) _
  exact (below.eq_of_length (Nat.add_right_cancel length).symm).symm

/-- Whatever is opened is closed in its own style. -/
theorem pairsAlike (nests : cutting.Nests styles marks styles') :
    cutting.PairsAlike marks := by
  rintro before opening inner closing after style style' rfl opens closes balanced
  obtain ⟨inside, first, last⟩ := append_iff.mp nests
  obtain ⟨outside, begins, middle⟩ := append_iff.mp first
  have matched : inside = style :: outside := by
    cases middle with
    | opening _ others => exact others.eq_of_balanced balanced
    | closing closes => exact absurd opens closes.not_isOpening
    | other free => exact absurd (.inl opens) free
  subst matched
  cases last with
  | opening opens => exact absurd opens closes.not_isOpening
  | closing => rfl
  | other free => exact absurd (.inr closes) free

end Nests

namespace IsNested

/-- What is nested stays so behind what is nested. -/
theorem append
    (nested : cutting.IsNested left)
    (nested' : cutting.IsNested right) : cutting.IsNested (left ++ right) :=
  fun styles => Nests.append_iff.mpr ⟨styles, nested styles, nested' styles⟩

/-- Text without brackets. -/
theorem of_free (free : ∀ mark ∈ marks, ¬cutting.IsBracket mark.2) :
    cutting.IsNested marks := by
  intro styles
  induction marks with
  | nil => exact .nil styles
  | cons mark marks inductionHypothesis =>
      obtain ⟨first, others⟩ := List.forall_mem_cons.mp free
      exact .other first (inductionHypothesis others)

theorem enclosed
    (opens : cutting.IsOpening opening)
    (closes : cutting.IsClosing closing)
    (style : Style)
    (nested : cutting.IsNested marks) :
    cutting.IsNested ((style, opening) :: marks ++ [(style, closing)]) :=
  fun styles => .opening opens <| Nests.append_iff.mpr
    ⟨style :: styles, nested _, .closing closes (.nil styles)⟩

theorem settled (nested : cutting.IsNested marks) :
    cutting.closings (marks.map Prod.snd) = cutting.openings (marks.map Prod.snd) :=
  Nat.add_left_cancel (nested []).length_add_closings

/-- Nested marks are balanced. -/
theorem balanced (nested : cutting.IsNested marks) :
    cutting.Balanced (marks.map Prod.snd) where
  opened := by
    rintro front ⟨rest, split⟩
    obtain ⟨left, right, rfl, rfl, -⟩ := List.map_eq_append_iff.mp split.symm
    obtain ⟨between, begins, -⟩ := Nests.append_iff.mp (nested [])
    have length := begins.length_add_closings
    rw [List.length_nil] at length
    omega
  settled := nested.settled

end IsNested

/-- What comes behind is read inside the brackets that are open by then. -/
theorem shadedFrom_append
    (balance : outer' + cutting.closings (left.map Prod.snd) =
      outer + cutting.openings (left.map Prod.snd)) :
    cutting.ShadedFrom outer (left ++ right) ↔
      cutting.ShadedFrom outer left ∧ cutting.ShadedFrom outer' right := by
  constructor
  · intro shaded
    refine ⟨fun before style c after marksEq bracket =>
      shaded before style c (after ++ right) (by simp [marksEq]) bracket,
      fun before style c after marksEq bracket => ?_⟩
    obtain ⟨depth, inside, styleEq⟩ :=
      shaded (left ++ before) style c after (by simp [marksEq]) bracket
    simp only [List.map_append, List.append_assoc, closings_append,
      openings_append] at inside ⊢
    exact ⟨depth, by omega, styleEq⟩
  · rintro ⟨shaded, shaded'⟩ before style c after marksEq bracket
    rcases List.append_eq_append_iff.mp marksEq with
      ⟨between, rfl, rightEq⟩ | ⟨between, leftEq, afterEq⟩
    · obtain ⟨depth, inside, styleEq⟩ := shaded' between style c after rightEq bracket
      simp only [List.map_append, closings_append, openings_append] at inside ⊢
      exact ⟨depth, by omega, styleEq⟩
    · subst leftEq
      cases between with
      | nil =>
          obtain ⟨depth, inside, styleEq⟩ := shaded' [] style c after afterEq.symm bracket
          simp only [List.append_nil, List.map_nil, List.nil_append, openings_nil,
            closings_append] at inside balance ⊢
          exact ⟨depth, by omega, styleEq⟩
      | cons mark between =>
          obtain ⟨rfl, -⟩ := List.cons.inj afterEq
          exact shaded before style c between rfl bracket

theorem shadedFrom_singleton :
    cutting.ShadedFrom outer [(style, c)] ↔ (cutting.IsBracket c ->
      ∃ depth, depth + cutting.closings [c] = outer ∧ style = .ofDepth depth) := by
  constructor
  · intro shaded bracket
    exact shaded [] style c [] rfl bracket
  · intro alone before style' c' after marksEq bracket
    cases before with
    | nil =>
        cases marksEq
        exact alone bracket
    | cons mark before => simp at marksEq

/-- Without brackets there is nothing to compare. -/
theorem shadedFrom_of_free (free : ∀ mark ∈ marks, ¬cutting.IsBracket mark.2) :
    cutting.ShadedFrom outer marks := by
  rintro before style c after rfl bracket
  exact absurd bracket (free (style, c) (by simp))

theorem shadedFrom_enclosed
    (opens : cutting.IsOpening opening)
    (closes : cutting.IsClosing closing)
    (nested : cutting.IsNested marks) :
    cutting.ShadedFrom outer ((style, opening) :: marks ++ [(style, closing)]) ↔
      style = .ofDepth outer ∧ cutting.ShadedFrom (outer + 1) marks := by
  have first : cutting.ShadedFrom outer [(style, opening)] ↔ style = .ofDepth outer := by
    simp [shadedFrom_singleton, closings_of_isOpening opens, IsBracket, opens]
  have last : cutting.ShadedFrom (outer + 1) [(style, closing)] ↔
      style = .ofDepth outer := by
    simp [shadedFrom_singleton, closings_of_isClosing closes, IsBracket, closes]
  have inside : outer + 1 + cutting.closings [opening] =
      outer + cutting.openings [opening] := by
    rw [openings_of_isOpening opens, closings_of_isOpening opens]
  rw [List.cons_append, ← List.singleton_append, shadedFrom_append inside,
    shadedFrom_append (congrArg (outer + 1 + ·) nested.settled), first, last]
  exact ⟨fun ⟨styleEq, shaded, _⟩ => ⟨styleEq, shaded⟩,
    fun ⟨styleEq, shaded⟩ => ⟨styleEq, shaded, styleEq⟩⟩

/-- An opening bracket directly inside another one has one bracket more around it. -/
theorem IsInside.eq_succ_of_balanced
    {front between : List Char}
    {inner : Char}
    {depth' : Nat}
    (opens : cutting.IsOpening opening)
    (opens' : cutting.IsOpening inner)
    (balanced : cutting.Balanced between)
    (inside : cutting.IsInside depth front opening)
    (inside' : cutting.IsInside depth' (front ++ opening :: between) inner) :
    depth' = depth + 1 := by
  have outside := inside.add_closings_of_balanced opens balanced inside'
  rwa [closings_of_isOpening opens'] at outside

/-- Pairs look alike in any case. So the styles follow depth if they are those of the
depths, and then they differ from one depth to the next. -/
theorem IsNested.followsDepth_iff (nested : cutting.IsNested marks) :
    cutting.FollowsDepth marks ↔ cutting.ShadedFrom 0 marks := by
  have shaded_iff : cutting.ShadedFrom 0 marks ↔
      ∀ before style c after, marks = before ++ (style, c) :: after ->
        cutting.IsBracket c -> ∃ depth,
          cutting.IsInside depth (before.map Prod.snd) c ∧ style = .ofDepth depth := by
    simp only [ShadedFrom, IsInside, Nat.zero_add]
  rw [shaded_iff]
  refine ⟨FollowsDepth.shaded, fun shaded => ⟨shaded, (nested []).pairsAlike, ?_⟩⟩
  intro before outer between inner after style style' marksEq opens opens' balanced
  obtain ⟨depth, inside, rfl⟩ := shaded before style outer _ (by simpa using marksEq)
    (.inl opens)
  obtain ⟨depth', inside', rfl⟩ := shaded _ style' inner after marksEq (.inl opens')
  rw [List.map_append, List.map_cons] at inside'
  have deeper := inside.eq_succ_of_balanced opens opens' balanced inside'
  rw [Ne, Style.ofDepth_inj]
  omega

end Segmentation
end SymbolicLogic
