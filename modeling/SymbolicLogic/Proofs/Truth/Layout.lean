import SymbolicLogic.Proofs.Header.Alignment
import SymbolicLogic.Proofs.Truth.Table

/-!
# Which tables can be built

A main formula that was read can always be cut into header items. Its columns are
those of its displayed parts. So all that can fail for a setup that was read, if
its formulas bottom out on declared ones, is that a header has more value items
than its formula has columns. This happens exactly where a displayed quantifier
is restricted by a formula with a negation glyph in front.
-/

namespace SymbolicLogic

/-- As many nodes are displayed as the formula has parts to display. -/
theorem Decomposition.length_displayed
    {basics : List Formula}
    {formula : Formula}
    {root : Nat}
    {decomposition : Decomposition}
    (found : Decomposition.of formula basics = .ok (root, decomposition)) :
    decomposition.displayed.length = formula.displayedParts.length :=
  (extends_of found).parts.length_eq

namespace SetupError

/-- The error is a mismatch of the given numbers of columns and items. -/
def isMismatch (columns items : Nat) : SetupError -> Bool
  | .layoutMismatch _ columns' items' => columns' = columns && items' = items
  | _ => false

theorem exists_of_isMismatch
    {columns items : Nat}
    {error : SetupError}
    (mismatch : error.isMismatch columns items = true) :
    ∃ formula, error = .layoutMismatch formula columns items := by
  cases error with
  | layoutMismatch formula columns' items' =>
      simp only [isMismatch, Bool.and_eq_true, decide_eq_true_eq] at mismatch
      obtain ⟨rfl, rfl⟩ := mismatch
      exact ⟨formula, rfl⟩
  | _ => cases mismatch

end SetupError

namespace Setup

variable {language : Language} {setup : Setup} {basics mains : List Formula}
  {interpretations : List Interpretation} {base : Nat} {formula : Formula}

/-- What a setup reads is a formula that the language reads. -/
theorem Reads.parseFormula
    {text : String}
    (reads : Reads language text formula) :
    language.parseFormula text = .ok formula := by
  rw [Reads, Language.parseExpression] at reads
  split at reads
  · next whole read =>
      cases reads
      exact read
  · split at reads
    · cases reads
    · cases reads

/-- An aligned formula is laid out; any other has more value items in its header
than displayed parts. -/
theorem layOut_of_reads
    (suits : language.SuitsHeaders)
    {text : String}
    (reads : Reads language text formula)
    (bottomsOut : formula.BottomsOut basics)
    (interpretations : List Interpretation)
    (base : Nat) :
    (formula.IsAligned ->
      ∃ columns, layOut language basics interpretations base formula =
        .ok columns) ∧
    (¬formula.IsAligned ->
      ∃ items, formula.displayedParts.length < items ∧
        layOut language basics interpretations base formula =
          .error (.layoutMismatch formula formula.displayedParts.length
            items)) := by
  obtain ⟨items, cut, least, aligned_iff⟩ :=
    Language.items_of_parseFormula suits reads.parseFormula
  obtain ⟨⟨root, decomposition⟩, found⟩ :=
    bottomsOut.exists_decompose true .empty
  have ofEq : Decomposition.of formula basics = .ok (root, decomposition) :=
    found
  have columnsEq := Decomposition.length_displayed ofEq
  rw [← length_valuePositions] at least aligned_iff
  rw [layOut, cut]
  simp only [ofEq, columnsEq]
  constructor
  · intro aligned
    rw [if_pos (aligned_iff.mp aligned).symm]
    exact ⟨_, rfl⟩
  · intro notAligned
    have differ : ¬formula.displayedParts.length =
        (HeaderItem.valuePositions items).length :=
      fun equal => notAligned (aligned_iff.mpr equal.symm)
    rw [if_neg differ]
    exact ⟨_, by omega, rfl⟩

/-- The main formulas are laid out up to the first that is not aligned. -/
theorem layOutAll_of_reads
    (suits : language.SuitsHeaders)
    (reads : ∀ formula ∈ mains, ∃ text, Reads language text formula)
    (bottomsOut : ∀ formula ∈ mains, formula.BottomsOut basics)
    (interpretations : List Interpretation)
    (base : Nat) :
    ((∀ formula ∈ mains, formula.IsAligned) ->
      ∃ columns, layOutAll language basics interpretations base mains =
        .ok columns) ∧
    ((∃ formula ∈ mains, ¬formula.IsAligned) ->
      ∃ formula ∈ mains, ∃ items,
        formula.displayedParts.length < items ∧
        layOutAll language basics interpretations base mains =
          .error (.layoutMismatch formula formula.displayedParts.length
            items)) := by
  induction mains generalizing base with
  | nil =>
      refine ⟨fun _ => ⟨[], rfl⟩, ?_⟩
      rintro ⟨formula, member, -⟩
      cases member
  | cons formula mains inductionHypothesis =>
      obtain ⟨⟨text, readsFirst⟩, readsOthers⟩ :=
        List.forall_mem_cons.mp reads
      obtain ⟨bottomsFirst, bottomsOthers⟩ :=
        List.forall_mem_cons.mp bottomsOut
      obtain ⟨laidOut, torn⟩ := layOut_of_reads suits readsFirst bottomsFirst
        interpretations (base + 1)
      have others := inductionHypothesis readsOthers bottomsOthers
      rw [layOutAll]
      by_cases aligned : formula.IsAligned
      · obtain ⟨columns, columnsEq⟩ := laidOut aligned
        obtain ⟨othersLaidOut, othersTorn⟩ :=
          others (base + 1 + columns.length)
        constructor
        · intro allAligned
          obtain ⟨rest, restEq⟩ :=
            othersLaidOut (List.forall_mem_cons.mp allAligned).2
          exact ⟨_, bind_eq_ok.mpr
            ⟨_, columnsEq, bind_eq_ok.mpr ⟨_, restEq, rfl⟩⟩⟩
        · intro someTorn
          have tornLater : ∃ formula ∈ mains, ¬formula.IsAligned := by
            obtain ⟨other, member, notAligned⟩ := someTorn
            rcases List.mem_cons.mp member with rfl | member
            · exact absurd aligned notAligned
            · exact ⟨other, member, notAligned⟩
          obtain ⟨other, member, items, more, errorEq⟩ := othersTorn tornLater
          refine ⟨other, List.mem_cons_of_mem _ member, items, more, ?_⟩
          exact bind_eq_error.mpr
            (.inr ⟨_, columnsEq, bind_eq_error.mpr (.inl errorEq)⟩)
      · obtain ⟨items, more, errorEq⟩ := torn aligned
        constructor
        · intro allAligned
          exact absurd (List.forall_mem_cons.mp allAligned).1 aligned
        · intro _
          exact ⟨formula, List.mem_cons_self, items, more,
            bind_eq_error.mpr (.inl errorEq)⟩

/-- A setup whose formulas were read, and bottom out on declared ones, gives a
table exactly if no displayed part of a main formula has its quantifier torn
apart. Otherwise the header of some main formula has too many value items, and
that is the error: no header fails to be cut. -/
theorem build_iff_aligned
    (valid : language.validate = .ok ())
    (indexFree : language.IndexFree)
    (round : Brackets.round ∈ language.brackets)
    (square : Brackets.square ∈ language.brackets)
    (operands : setup.readOperands language = .ok (basics, mains))
    (bottomsOut : ∀ formula ∈ mains, formula.BottomsOut basics) :
    ((∃ table, setup.build language = .ok table) ↔
      ∀ formula ∈ mains, formula.IsAligned) ∧
    ((∃ formula ∈ mains, ¬formula.IsAligned) ->
      ∃ formula ∈ mains, ∃ items,
        formula.displayedParts.length < items ∧
        setup.build language =
          .error (.layoutMismatch formula formula.displayedParts.length
            items)) := by
  have suits : language.SuitsHeaders := ⟨valid, indexFree, round, square⟩
  have reads : ∀ formula ∈ mains, ∃ text, Reads language text formula := by
    intro formula member
    obtain ⟨text, -, reads⟩ :=
      exists_of_mem_of_forall₂ (readOperands_eq_ok operands).2 member
    exact ⟨text, reads⟩
  obtain ⟨laidOut, torn⟩ := layOutAll_of_reads suits reads bottomsOut
    (Interpretation.all basics.length)
    (basicColumns basics (Interpretation.all basics.length)).length
  refine ⟨⟨?_, ?_⟩, ?_⟩
  · rintro ⟨table, built⟩
    obtain ⟨others, again, interpretationsEq, -, found⟩ := build_eq_ok built
    by_contra someTorn
    push Not at someTorn
    obtain ⟨formula, -, items, -, errorEq⟩ := torn someTorn
    rw [operands] at again
    cases again
    rw [interpretationsEq, errorEq] at found
    cases found
  · intro allAligned
    obtain ⟨columns, columnsEq⟩ := laidOut allAligned
    exact ⟨_, bind_eq_ok.mpr
      ⟨_, operands, bind_eq_ok.mpr ⟨_, columnsEq, rfl⟩⟩⟩
  · intro someTorn
    obtain ⟨formula, member, items, more, errorEq⟩ := torn someTorn
    refine ⟨formula, member, items, more, ?_⟩
    exact bind_eq_error.mpr
      (.inr ⟨_, operands, bind_eq_error.mpr (.inl errorEq)⟩)

/-- Nothing tears apart the quantifier of `(∀x: Fx)Gx`, so it is built. -/
theorem build_restricted :
    ∃ basics mains,
      readOperands ⟨["(∀x: Fx)Gx"], ["(∀x: Fx)Gx"], none, 2⟩ .predicate =
        .ok (basics, mains) ∧
      (∀ formula ∈ mains, formula.BottomsOut basics) ∧
      (∀ formula ∈ mains, formula.IsAligned) ∧
      ∃ table, build ⟨["(∀x: Fx)Gx"], ["(∀x: Fx)Gx"], none, 2⟩ .predicate =
        .ok table := by
  have reads : succeedsWith
      (readOperands ⟨["(∀x: Fx)Gx"], ["(∀x: Fx)Gx"], none, 2⟩ .predicate)
      (fun operands => operands.2.all fun formula =>
        formula.isBasic && (operands.1.any fun basic => basic.same formula) &&
          formula.IsAligned) = true := by
    decide +kernel
  obtain ⟨⟨basics, mains⟩, operands, tested⟩ := exists_of_succeedsWith reads
  simp only [List.all_eq_true, Bool.and_eq_true, List.any_eq_true,
    decide_eq_true_eq] at tested
  have bottomsOut : ∀ formula ∈ mains, formula.BottomsOut basics :=
    fun formula member =>
      .basic (tested formula member).1.1 (tested formula member).1.2
  have aligned : ∀ formula ∈ mains, formula.IsAligned :=
    fun formula member => (tested formula member).2
  have builtin : Language.predicate ∈ Registry.builtin.languages := by decide
  exact ⟨basics, mains, operands, bottomsOut, aligned,
    (build_iff_aligned (Language.validate_of_mem_builtin builtin)
      (Language.indexFree_of_mem_builtin builtin) (by decide) (by decide)
      operands bottomsOut).1.mpr aligned⟩

/-- The negation glyph in `(∀x: ~Fx)Gx` tears the quantifier apart: there are
three value items for a formula that has one column. -/
theorem build_restricted_by_negation :
    Language.predicate.validate = .ok () ∧ Language.predicate.IndexFree ∧
      Brackets.round ∈ Language.predicate.brackets ∧
      Brackets.square ∈ Language.predicate.brackets ∧
      ∃ basics mains formula,
        readOperands ⟨["(∀x: ~Fx)Gx"], ["(∀x: ~Fx)Gx"], none, 2⟩ .predicate =
          .ok (basics, mains) ∧
        (∀ formula ∈ mains, formula.BottomsOut basics) ∧
        build ⟨["(∀x: ~Fx)Gx"], ["(∀x: ~Fx)Gx"], none, 2⟩ .predicate =
          .error (.layoutMismatch formula 1 3) := by
  have reads : succeedsWith
      (readOperands ⟨["(∀x: ~Fx)Gx"], ["(∀x: ~Fx)Gx"], none, 2⟩ .predicate)
      (fun operands => operands.2.all fun formula =>
        formula.isBasic && operands.1.any fun basic => basic.same formula) =
      true := by
    decide +kernel
  have fails : failsWith
      (build ⟨["(∀x: ~Fx)Gx"], ["(∀x: ~Fx)Gx"], none, 2⟩ .predicate)
      (SetupError.isMismatch 1 3) = true := by
    decide +kernel
  obtain ⟨⟨basics, mains⟩, operands, tested⟩ := exists_of_succeedsWith reads
  obtain ⟨failure, built, mismatch⟩ := exists_of_failsWith fails
  obtain ⟨formula, rfl⟩ := SetupError.exists_of_isMismatch mismatch
  simp only [List.all_eq_true, Bool.and_eq_true, List.any_eq_true] at tested
  have builtin : Language.predicate ∈ Registry.builtin.languages := by decide
  exact ⟨Language.validate_of_mem_builtin builtin,
    Language.indexFree_of_mem_builtin builtin, by decide, by decide, basics,
    mains, formula, operands,
    fun formula member =>
      .basic (tested formula member).1 (tested formula member).2, built⟩

end Setup
end SymbolicLogic
