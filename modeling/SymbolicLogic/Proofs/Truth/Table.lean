import SymbolicLogic.Proofs.Truth.Tabulation

/-!
# Truth tables show truth values

A table that is built from a setup has the columns of the basic formulas first,
and then, for each main formula, those of its displayed parts. The vectors of the
setup are those of the columns.
-/

namespace SymbolicLogic

namespace LaidOut

variable {basics formulas : List Formula} {interpretations : List Interpretation}
  {base : Nat} {columns : List Column} {positions : List Nat}

/-- The positions are those of the main columns. -/
theorem mainPositions_eq
    (laidOut :
      LaidOut basics interpretations base formulas columns positions) :
    Column.mainPositions base columns = positions := by
  induction laidOut with
  | nil base => rfl
  | @cons base whole formula formulas columns others positions shows _
      inductionHypothesis =>
      have divider :
          Column.mainPositions base (.blank .divider :: columns) =
            Column.mainPositions (base + 1) columns := rfl
      have following : base + (columns.length + 1) =
          base + 1 + columns.length := by omega
      rw [Column.mainPositions_append, divider, shows.mainPositions_eq,
        List.length_cons, following, inductionHypothesis]
      rfl

/-- There is one position for each formula, that of a column of its values. -/
theorem forall₂_columns
    (laidOut :
      LaidOut basics interpretations base formulas columns positions)
    {leading : List Column}
    (length_eq : leading.length = base) :
    List.Forall₂
      (fun formula position => ∃ column,
        (leading ++ columns)[position]? = some column ∧
        column.HoldsValuesOf formula basics interpretations)
      formulas positions := by
  induction laidOut generalizing leading with
  | nil base => exact .nil
  | @cons base whole formula formulas columns others positions shows _
      inductionHypothesis =>
      refine .cons ?_ ?_
      · obtain ⟨column, found, holds⟩ := shows.main
        have afterLeading : base + 1 + whole - leading.length = whole + 1 := by
          omega
        refine ⟨column, ?_, holds⟩
        rw [List.getElem?_append_right (by omega), afterLeading]
        exact getElem?_append_of_eq_some found _
      · have regrouped :
            leading ++ (Column.blank .divider :: columns ++ others) =
              (leading ++ Column.blank .divider :: columns) ++ others := by
          rw [List.append_assoc]
        rw [regrouped]
        apply inductionHypothesis
        rw [List.length_append, List.length_cons, length_eq]
        omega

end LaidOut

namespace Setup

/-- A text stands for the formula it is read as. -/
def Reads (language : Language) (text : String) (formula : Formula) : Prop :=
  language.parseExpression text = .ok (.formula formula)

variable {language : Language} {setup : Setup} {table : Table}

/-- A text that was read as a sentence is one. -/
theorem reads_of_readSentence
    {role : OperandRole}
    {position : Nat}
    {text : String}
    {formula : Formula}
    (found : readSentence language role position text = .ok formula) :
    Reads language text formula := by
  rw [readSentence] at found
  split at found
  · next parsed =>
      cases found
      exact parsed
  · cases found
  · cases found

/-- The formulas are those of the texts, in order. -/
theorem forall₂_reads
    {role : OperandRole}
    {texts : List String}
    {formulas : List Formula}
    (found : readSentences language role texts = .ok formulas) :
    List.Forall₂ (Reads language) texts formulas := by
  have pairs := (forall₂_of_mapM found).imp
    fun _ _ found => reads_of_readSentence found
  have texts_eq := List.zipIdx_map_fst 1 texts
  rw [← texts_eq, List.forall₂_map_left_iff]
  exact pairs

/-- The formulas of a setup are read from its texts, one by one. -/
theorem readOperands_eq_ok
    {basics mains : List Formula}
    (found : setup.readOperands language = .ok (basics, mains)) :
    List.Forall₂ (Reads language) setup.basics basics ∧
      List.Forall₂ (Reads language) setup.mains mains := by
  rw [readOperands] at found
  obtain ⟨-, -, found⟩ := bind_eq_ok.mp found
  obtain ⟨basics, basicsRead, found⟩ := bind_eq_ok.mp found
  obtain ⟨-, -, found⟩ := bind_eq_ok.mp found
  obtain ⟨-, -, found⟩ := bind_eq_ok.mp found
  obtain ⟨mains, mainsRead, finished⟩ := bind_eq_ok.mp found
  cases finished
  exact ⟨forall₂_reads basicsRead, forall₂_reads mainsRead⟩

/-- A table that was built has the columns of the basic formulas before those of the main
ones. -/
theorem build_eq_ok (built : setup.build language = .ok table) :
    ∃ others,
      setup.readOperands language = .ok (table.basics, table.mains) ∧
      table.interpretations = Interpretation.all table.basics.length ∧
      table.columns =
        basicColumns table.basics table.interpretations ++ others ∧
      layOutAll language table.basics table.interpretations
        (basicColumns table.basics table.interpretations).length
        table.mains = .ok others := by
  rw [build] at built
  obtain ⟨⟨basics, mains⟩, operands, built⟩ := bind_eq_ok.mp built
  obtain ⟨others, laidOut, finished⟩ := bind_eq_ok.mp built
  cases finished
  exact ⟨others, operands, rfl, rfl, laidOut⟩

/-- The columns of the basic formulas are no main columns. -/
theorem mainPositions_basicColumns
    (basics : List Formula)
    (interpretations : List Interpretation) :
    Column.mainPositions 0 (basicColumns basics interpretations) = [] := by
  apply Column.mainPositions_eq_nil
  rw [basicColumns, List.forall_mem_map]
  rintro ⟨formula, place⟩ -
  exact nofun

/-- The columns of a table that was built are those of the basic formulas, and then
those of the main formulas. -/
theorem laidOut_of_build (built : setup.build language = .ok table) :
    ∃ others,
      table.columns =
        basicColumns table.basics table.interpretations ++ others ∧
      LaidOut table.basics table.interpretations
        (basicColumns table.basics table.interpretations).length table.mains
        others table.mainColumns := by
  obtain ⟨others, -, -, columnsEq, found⟩ := build_eq_ok built
  obtain ⟨positions, laidOut⟩ := laidOut_of_layOutAll found
  have positionsEq : table.mainColumns = positions := by
    have split : table.mainColumns =
        Column.mainPositions 0
          (basicColumns table.basics table.interpretations ++ others) := by
      rw [← columnsEq]
      rfl
    rw [split, Column.mainPositions_append, mainPositions_basicColumns,
      Nat.zero_add, laidOut.mainPositions_eq, List.nil_append]
  rw [positionsEq]
  exact ⟨others, columnsEq, laidOut⟩

/-- Each main formula has a column of its values. -/
theorem forall₂_mainColumns (built : setup.build language = .ok table) :
    List.Forall₂
      (fun formula position => ∃ column,
        table.columns[position]? = some column ∧
        column.HoldsValuesOf formula table.basics table.interpretations)
      table.mains table.mainColumns := by
  obtain ⟨others, columnsEq, laidOut⟩ := laidOut_of_build built
  rw [columnsEq]
  exact laidOut.forall₂_columns rfl

/-- A table that was built has the vectors that are tabulated for the setup. It has, for
each main formula in turn, one main column, which holds the values of the formula in all
rows, and next to it the columns of the other displayed parts, which hold the values of
these. -/
theorem build_shows_values (built : setup.build language = .ok table) :
    (setup.tabulate language).run = some (.ok table.tabulation) ∧
    List.Forall₂ (Reads language) setup.basics table.basics ∧
    List.Forall₂ (Reads language) setup.mains table.mains ∧
    table.interpretations = Interpretation.all table.basics.length ∧
    List.Forall₂
      (fun formula position => ∃ column,
        table.columns[position]? = some column ∧
        column.HoldsValuesOf formula table.basics table.interpretations)
      table.mains table.mainColumns ∧
    ∃ leading others, table.columns = leading ++ others ∧
      leading.length = table.basics.length ∧
      LaidOut table.basics table.interpretations leading.length table.mains
        others table.mainColumns := by
  obtain ⟨-, operands, interpretationsEq, -, -⟩ := build_eq_ok built
  have ⟨basicsRead, mainsRead⟩ := readOperands_eq_ok operands
  obtain ⟨others, columnsEq, laidOut⟩ := laidOut_of_build built
  refine ⟨?_, basicsRead, mainsRead, interpretationsEq, forall₂_mainColumns built, _,
    others, columnsEq, ?_, laidOut⟩
  · rw [run_tabulate, built]
    rfl
  · rw [basicColumns, List.length_map, List.length_zipIdx]

/-- The conditional `A → ~B` has columns for `A`, itself, `~B` and `B`. The second of
them is its main column, which is false in the first row only. -/
theorem build_shows_conditional :
    ∃ table leading columns,
      build ⟨["A", "B"], ["A → ~B"], none, 4⟩ .predicate = .ok table ∧
      (tabulate ⟨["A", "B"], ["A → ~B"], none, 4⟩ .predicate).run =
        some (.ok table.tabulation) ∧
      table.columns = leading ++ .blank .divider :: columns ∧
      leading.length = 2 ∧
      (Column.valued columns).map Column.values =
        [some [true, true, false, false], some [false, true, true, true],
          some [false, true, false, true], some [true, false, true, false]] ∧
      table.mainColumns = [4] ∧
      table.key[4]? = some (some [false, true, true, true]) ∧
      List.Forall₂
        (fun formula position => ∃ column,
          table.columns[position]? = some column ∧
          column.HoldsValuesOf formula table.basics table.interpretations)
        table.mains table.mainColumns := by
  have builds : succeedsWith
      (build ⟨["A", "B"], ["A → ~B"], none, 4⟩ .predicate)
      (fun table => table.basics.length = 2 && table.mainColumns = [4] &&
        table.mains.map (fun formula => formula.displayedParts.map fun part =>
            table.interpretations.mapM (part.evaluate? table.basics)) =
          [[some [true, true, false, false], some [false, true, true, true],
            some [false, true, false, true], some [true, false, true, false]]] &&
        table.mains.map (fun formula =>
            table.interpretations.mapM (formula.evaluate? table.basics)) =
          [some [false, true, true, true]]) = true := by
    decide +kernel
  obtain ⟨table, built, tested⟩ := exists_of_succeedsWith builds
  simp only [Bool.and_eq_true, decide_eq_true_eq] at tested
  obtain ⟨⟨⟨two, position⟩, parts⟩, whole⟩ := tested
  obtain ⟨tabulated, -, -, -, mains, leading, others, columnsEq, lengthEq, laidOut⟩ :=
    build_shows_values built
  obtain ⟨formula, mainsEq⟩ : ∃ formula, table.mains = [formula] := by
    have single := congrArg List.length whole
    rw [List.length_map] at single
    exact List.length_eq_one_iff.mp single
  rw [mainsEq, List.map_singleton, List.cons.injEq] at parts whole
  have shown := mains
  rw [mainsEq, position, List.forall₂_cons] at shown
  obtain ⟨⟨column, inTable, values, valuesEq, hasValues⟩, -⟩ := shown
  rw [hasValues.mapM_evaluate?, Option.some.injEq] at whole
  rw [mainsEq] at laidOut
  generalize table.mainColumns = positions at laidOut
  cases laidOut with
  | @cons _ _ _ _ columns others _ shows rest =>
      cases rest
      rw [List.append_nil] at columnsEq
      refine ⟨table, leading, columns, built, tabulated, columnsEq, lengthEq.trans two, ?_,
        position, ?_, mains⟩
      · rw [Column.map_values_of_forall₂ shows.parts]
        exact parts.1
      · rw [Table.key, List.getElem?_map, inTable, Option.map_some, valuesEq, whole.1]

end Setup
end SymbolicLogic
