import Mathlib.Algebra.Group.Nat.Defs
import SymbolicLogic.Proofs.Truth.Skeleton
import SymbolicLogic.Proofs.Truth.Table

/-!
# Columns of formulas that are the same

The value of a formula does not depend on how it is written, so main formulas that
are the same have the same columns. Every declared basic formula has a column of its
own. A main formula has the column of its first declaration, unless it is a negation
or a binary formula: then it is taken apart even though it is declared, and the column
of the declaration has no bearing on it. Declarations are told apart by their texts, so
a formula can be declared twice, with two columns.
-/

namespace SymbolicLogic

namespace Table

/-- The value in a row of the column at a position. -/
def value? (table : Table) (position row : Nat) : Option Bool :=
  table.columns[position]?.bind fun column => column.value? row

/-- The two columns have values in all rows, and these are equal. -/
def Agree (table : Table) (first second : Nat) : Prop :=
  ∀ row < table.rows, ∃ value,
    table.value? first row = some value ∧ table.value? second row = some value

/-- In some row the two columns have different values. -/
def Differ (table : Table) (first second : Nat) : Prop :=
  ∃ row < table.rows, ∃ value,
    table.value? first row = some value ∧
      table.value? second row = some (!value)

/-- A row that agrees with one of two that differ differs from the other. -/
theorem Differ.of_agree
    {table : Table}
    {first second third : Nat}
    (differ : table.Differ first second)
    (agree : table.Agree second third) : table.Differ first third := by
  obtain ⟨row, inside, value, valueEq, valueEq'⟩ := differ
  obtain ⟨value', equal, equal'⟩ := agree row inside
  cases valueEq'.symm.trans equal
  exact ⟨row, inside, value, valueEq, equal'⟩

end Table

namespace Interpretation

variable {n place row : Nat}

/-- The number of rows is a power of two. -/
theorem rowCount_eq_pow (n : Nat) : rowCount n = 2 ^ n := by
  induction n with
  | zero => rfl
  | succ n inductionHypothesis =>
      rw [rowCount, inductionHypothesis, Nat.pow_succ, Nat.mul_comm]

theorem getElem?_all (inside : row < rowCount n) :
    (all n)[row]? = some (ofRow n row) := by
  simp [all, inside]

/-- A row gives a formula the bit at its place, counted from the front and turned over. -/
theorem value_ofRow (inside : place < n) :
    (ofRow n row).value place = !row.testBit (n - 1 - place) := by
  simp [value, ofRow, inside]

/-- For each basic formula there are two rows that differ in its value and in no
other. -/
theorem exists_rows_differing (inside : place < n) :
    ∃ row < rowCount n, ∃ row' < rowCount n,
      (ofRow n row).value place ≠ (ofRow n row').value place ∧
        ∀ other, other ≠ place ->
          (ofRow n row).value other = (ofRow n row').value other := by
  refine ⟨0, rowCount_pos n, 2 ^ (n - 1 - place), ?_, ?_, ?_⟩
  · rw [rowCount_eq_pow]
    exact Nat.pow_lt_pow_right Nat.one_lt_two (by omega)
  · rw [value_ofRow inside, value_ofRow inside]
    simp
  · intro other different
    by_cases within : other < n
    · have bits : n - 1 - place ≠ n - 1 - other := by omega
      rw [value_ofRow within, value_ofRow within]
      simp [bits]
    · simp [value, ofRow, within]

end Interpretation

namespace Setup

variable {language : Language} {setup : Setup} {table : Table}
  {row : Nat} {interpretation : Interpretation}

/-- A basic formula has the value that the interpretation gives it. -/
theorem value?_basic
    (built : setup.build language = .ok table)
    {place : Nat}
    (inside : place < table.basics.length)
    (inRow : table.interpretations[row]? = some interpretation) :
    table.value? place row = some (interpretation.value place) := by
  obtain ⟨others, columnsEq, -⟩ := laidOut_of_build built
  have found : (basicColumns table.basics table.interpretations)[place]? =
      some (Column.basic (Expression.formula table.basics[place]).runs
        (table.interpretations.map fun interpretation =>
          interpretation.value place)) := by
    simp [basicColumns, inside]
  rw [Table.value?, columnsEq, getElem?_append_of_eq_some found]
  simp [Column.value?, Column.basic, inRow]

/-- A main formula has its value. -/
theorem exists_value?_main
    (built : setup.build language = .ok table)
    {place : Nat}
    {formula : Formula}
    (main : table.mains[place]? = some formula) :
    ∃ position, table.mainColumns[place]? = some position ∧
      ∀ {row interpretation},
        table.interpretations[row]? = some interpretation ->
        ∃ value, table.value? position row = some value ∧
          formula.evaluate? table.basics interpretation = some value := by
  obtain ⟨position, found, column, inTable, values, valuesEq, hasValues⟩ :=
    exists_of_getElem?_of_forall₂ (forall₂_mainColumns built) main
  refine ⟨position, found, fun inRow => ?_⟩
  obtain ⟨value, foundValue, evaluated⟩ :=
    exists_of_getElem?_of_forall₂ hasValues inRow
  refine ⟨value, ?_, evaluated⟩
  simp [Table.value?, inTable, Column.value?, valuesEq, foundValue]

/-- Two main formulas have equal values in each row in which they evaluate alike. -/
theorem exists_value?_mains
    (built : setup.build language = .ok table)
    {first second : Nat}
    {formula formula' : Formula}
    (main : table.mains[first]? = some formula)
    (main' : table.mains[second]? = some formula') :
    ∃ position position',
      table.mainColumns[first]? = some position ∧
        table.mainColumns[second]? = some position' ∧
        ∀ {row interpretation},
          table.interpretations[row]? = some interpretation ->
          formula.evaluate? table.basics interpretation =
            formula'.evaluate? table.basics interpretation ->
          ∃ value, table.value? position row = some value ∧
            table.value? position' row = some value := by
  obtain ⟨position, found, values⟩ := exists_value?_main built main
  obtain ⟨position', found', values'⟩ := exists_value?_main built main'
  refine ⟨position, position', found, found', fun inRow alike => ?_⟩
  obtain ⟨value, valueEq, evaluated⟩ := values inRow
  obtain ⟨value', valueEq', evaluated'⟩ := values' inRow
  rw [alike, evaluated'] at evaluated
  cases evaluated
  exact ⟨value, valueEq, valueEq'⟩

theorem rows_eq (built : setup.build language = .ok table) :
    table.rows = Interpretation.rowCount table.basics.length := by
  obtain ⟨_, -, interpretationsEq, -, -⟩ := build_eq_ok built
  rw [Table.rows, interpretationsEq, Interpretation.length_all]

/-- The interpretation of a row is given by its number. -/
theorem getElem?_interpretations
    (built : setup.build language = .ok table)
    (inside : row < table.rows) :
    table.interpretations[row]? =
      some (Interpretation.ofRow table.basics.length row) := by
  obtain ⟨_, -, interpretationsEq, -, -⟩ := build_eq_ok built
  rw [rows_eq built] at inside
  rw [interpretationsEq, Interpretation.getElem?_all inside]

/-- Main formulas that are the same have columns that agree. -/
theorem agree_of_same
    (built : setup.build language = .ok table)
    {first second : Nat}
    {formula formula' : Formula}
    (main : table.mains[first]? = some formula)
    (main' : table.mains[second]? = some formula')
    (same : formula.same formula' = true) :
    ∃ position position',
      table.mainColumns[first]? = some position ∧
        table.mainColumns[second]? = some position' ∧
        table.Agree position position' := by
  obtain ⟨position, position', found, found', agree⟩ :=
    exists_value?_mains built main main'
  refine ⟨position, position', found, found', fun row inside => ?_⟩
  refine agree (getElem?_interpretations built inside) ?_
  exact Formula.evaluate?_of_same same fun _ _ _ _ => rfl

/-- A main formula that is basic has the column of its first declaration. -/
theorem agree_of_isBasic
    (built : setup.build language = .ok table)
    {main place : Nat}
    {formula : Formula}
    (isMain : table.mains[main]? = some formula)
    (declared :
      (table.basics.findIdx? fun basic => basic.same formula) = some place)
    (isBasic : formula.isBasic = true) :
    ∃ position, table.mainColumns[main]? = some position ∧
      table.Agree place position := by
  obtain ⟨position, found, values⟩ := exists_value?_main built isMain
  obtain ⟨inside, -⟩ := List.findIdx?_eq_some_iff_getElem.mp declared
  refine ⟨position, found, fun row inRows => ?_⟩
  have inRow := getElem?_interpretations built inRows
  obtain ⟨value, valueEq, evaluated⟩ := values inRow
  rw [Formula.evaluate?_of_isBasic isBasic, declared, Option.map_some,
    Option.some_inj] at evaluated
  refine ⟨value, ?_, valueEq⟩
  rw [value?_basic built inside inRow, evaluated]

/-- A column that does not change with the value of a declared formula alone is not
the column of this formula. -/
theorem differ_of_unchanged
    (built : setup.build language = .ok table)
    {place position : Nat}
    (inside : place < table.basics.length)
    (unchanged : ∀ {row row' interpretation interpretation'},
      table.interpretations[row]? = some interpretation ->
      table.interpretations[row']? = some interpretation' ->
      (∀ other, other ≠ place ->
        interpretation.value other = interpretation'.value other) ->
      ∃ value, table.value? position row = some value ∧
        table.value? position row' = some value) :
    table.Differ place position := by
  obtain ⟨row, inRows, row', inRows', different, others⟩ :=
    Interpretation.exists_rows_differing inside
  rw [← rows_eq built] at inRows inRows'
  have inRow := getElem?_interpretations built inRows
  have inRow' := getElem?_interpretations built inRows'
  obtain ⟨value, valueEq, valueEq'⟩ := unchanged inRow inRow' others
  by_cases here :
      (Interpretation.ofRow table.basics.length row).value place = value
  · refine ⟨row', inRows', _, value?_basic built inside inRow', ?_⟩
    rw [valueEq', ← here, Bool.eq_not_of_ne different]
  · refine ⟨row, inRows, _, value?_basic built inside inRow, ?_⟩
    rw [valueEq, Bool.eq_not_of_ne here, Bool.not_not]

/-- Different declarations have different columns, whatever the formulas are. -/
theorem differ_of_ne
    (built : setup.build language = .ok table)
    {first second : Nat}
    (inside : first < table.basics.length)
    (inside' : second < table.basics.length)
    (different : first ≠ second) :
    table.Differ first second := by
  refine differ_of_unchanged built inside fun inRow inRow' others => ?_
  refine ⟨_, value?_basic built inside' inRow, ?_⟩
  rw [value?_basic built inside' inRow', others second different.symm]

/-- A negation or a binary formula has another column than a declaration of it. The
value of the declaration can change while its own does not. -/
theorem differ_of_not_isBasic
    (built : setup.build language = .ok table)
    {main place : Nat}
    {formula declared : Formula}
    (isMain : table.mains[main]? = some formula)
    (isDeclared : table.basics[place]? = some declared)
    (same : declared.same formula = true)
    (compound : formula.isBasic = false) :
    ∃ position, table.mainColumns[main]? = some position ∧
      table.Differ place position := by
  obtain ⟨position, found, values⟩ := exists_value?_main built isMain
  obtain ⟨inside, -⟩ := List.getElem?_eq_some_iff.mp isDeclared
  refine ⟨position, found, differ_of_unchanged built inside ?_⟩
  intro row row' interpretation interpretation' inRow inRow' others
  obtain ⟨value, valueEq, evaluated⟩ := values inRow
  obtain ⟨value', valueEq', evaluated'⟩ := values inRow'
  rw [Formula.evaluate?_of_same formula.same_refl ?_, evaluated'] at evaluated
  · cases evaluated
    exact ⟨value, valueEq, valueEq'⟩
  · intro other declaration isOther isBasic
    refine others other ?_
    rintro rfl
    cases isDeclared.symm.trans isOther
    rw [Formula.isBasic_eq_of_same same, compound] at isBasic
    cases isBasic

/-- In a table that was built, main formulas that are the same have columns that agree
in all rows. The column of a main formula and that of a declared formula that is the
same agree in all rows if the formula is basic and no declaration before is the same,
and differ in some row otherwise. Two declared formulas have columns that differ in
some row, even if they are the same. -/
theorem same_formulas_agree (built : setup.build language = .ok table) :
    (∀ (first second : Nat) (formula formula' : Formula),
      table.mains[first]? = some formula ->
      table.mains[second]? = some formula' ->
      formula.same formula' = true ->
      ∃ position position',
        table.mainColumns[first]? = some position ∧
          table.mainColumns[second]? = some position' ∧
          table.Agree position position') ∧
    (∀ (main place : Nat) (formula declared : Formula),
      table.mains[main]? = some formula ->
      table.basics[place]? = some declared ->
      declared.same formula = true ->
      ∃ position, table.mainColumns[main]? = some position ∧
        if formula.isBasic = true ∧
            (table.basics.findIdx? fun basic => basic.same formula) = some place then
          table.Agree place position
        else
          table.Differ place position) ∧
    ∀ first second : Nat,
      first < table.basics.length ->
      second < table.basics.length ->
      first ≠ second -> table.Differ first second := by
  refine ⟨?_, ?_, fun _ _ => differ_of_ne built⟩
  · intro first second formula formula' main main' same
    exact agree_of_same built main main' same
  · intro main place formula declared isMain isDeclared same
    obtain ⟨inside, declaredEq⟩ := List.getElem?_eq_some_iff.mp isDeclared
    cases isBasic : formula.isBasic with
    | true =>
        cases lookup : table.basics.findIdx? fun basic => basic.same formula with
        | none =>
            have absent := List.findIdx?_eq_none_iff.mp lookup declared
              (List.mem_of_getElem? isDeclared)
            cases same.symm.trans absent
        | some first =>
            obtain ⟨position, found, agree⟩ :=
              agree_of_isBasic built isMain lookup isBasic
            refine ⟨position, found, ?_⟩
            by_cases isFirst : first = place
            · simpa [isFirst] using isFirst ▸ agree
            · obtain ⟨inside', -⟩ := List.findIdx?_eq_some_iff_getElem.mp lookup
              have differ := differ_of_ne built inside inside' (Ne.symm isFirst)
              simpa [isFirst] using differ.of_agree agree
    | false =>
        obtain ⟨position, found, differ⟩ :=
          differ_of_not_isBasic built isMain isDeclared same isBasic
        exact ⟨position, found, by simpa using differ⟩

/-- The two quantified formulas differ in their brackets only. As main formulas they
have columns that agree with the column of the first declaration. So the column of the
second one differs from that of its own declaration. -/
theorem same_formulas_agree_brackets :
    let texts := ["∀x(Fx → Gx)", "∀x[Fx → Gx]"]
    ∃ table position position',
      build ⟨texts, texts, none, 4⟩ .predicate = .ok table ∧
      table.mainColumns[0]? = some position ∧
      table.mainColumns[1]? = some position' ∧
      table.Agree position position' ∧ table.Agree 0 position' ∧
      table.Differ 1 position' ∧ table.Differ 0 1 := by
  intro texts
  have builds : succeedsWith (build ⟨texts, texts, none, 4⟩ .predicate)
      (fun table =>
        table.mains[0]?.any fun first => table.mains[1]?.any fun second =>
          table.basics[0]?.any fun declared => table.basics[1]?.any fun later =>
            first.same second && declared.same second && later.same second &&
              second.isBasic &&
              (table.basics.findIdx? fun basic => basic.same second) == some 0) =
      true := by
    decide +kernel
  obtain ⟨table, built, test⟩ := exists_of_succeedsWith builds
  simp only [Option.any_eq_true, Bool.and_eq_true, beq_iff_eq] at test
  obtain ⟨first, main, second, main', declared, isDeclared, later, isLater,
    ⟨⟨⟨same, same'⟩, sameLater⟩, isBasic⟩, lookup⟩ := test
  have ⟨agree, agreeDeclared, differ⟩ := same_formulas_agree built
  obtain ⟨position, position', found, found', agree⟩ :=
    agree 0 1 first second main main' same
  obtain ⟨_, atFirst, agreeFirst⟩ :=
    agreeDeclared 1 0 second declared main' isDeclared same'
  obtain ⟨_, atLater, differLater⟩ :=
    agreeDeclared 1 1 second later main' isLater sameLater
  cases found'.symm.trans atFirst
  cases found'.symm.trans atLater
  rw [if_pos ⟨isBasic, lookup⟩] at agreeFirst
  rw [if_neg (by simp [lookup])] at differLater
  obtain ⟨inside, -⟩ := List.getElem?_eq_some_iff.mp isDeclared
  obtain ⟨inside', -⟩ := List.getElem?_eq_some_iff.mp isLater
  exact ⟨table, position, position', built, found, found', agree, agreeFirst,
    differLater, differ 0 1 inside inside' Nat.zero_ne_one⟩

/-- The conditional `P → Q` is declared, and it is a main formula. Its columns differ
where `P` is true and `Q` is false. -/
theorem declared_conditional_differs :
    ∃ table basic main,
      build ⟨["P", "P → Q", "Q"], ["P → Q"], none, 8⟩ .sentential = .ok table ∧
      table.basics[1]? = some basic ∧ table.mains[0]? = some main ∧
      basic.same main = true ∧ table.mainColumns[0]? = some 5 ∧
      table.value? 1 1 = some true ∧ table.value? 5 1 = some false := by
  have builds : succeedsWith
      (build ⟨["P", "P → Q", "Q"], ["P → Q"], none, 8⟩ .sentential)
      (fun table =>
        table.basics[1]?.any fun basic => table.mains[0]?.any fun main =>
          table.interpretations[1]?.any fun interpretation =>
            basic.same main && table.mainColumns[0]? == some 5 &&
              table.value? 1 1 == some true &&
              main.evaluate? table.basics interpretation == some false) = true := by
    decide +kernel
  obtain ⟨table, built, test⟩ := exists_of_succeedsWith builds
  simp only [Option.any_eq_true, Bool.and_eq_true, beq_iff_eq] at test
  obtain ⟨basic, isDeclared, main, isMain, interpretation, inRow,
    ⟨⟨same, column⟩, declared⟩, computed⟩ := test
  obtain ⟨position, found, values⟩ := exists_value?_main built isMain
  obtain ⟨value, valueEq, evaluated⟩ := values inRow
  cases column.symm.trans found
  cases computed.symm.trans evaluated
  exact ⟨table, basic, main, built, isDeclared, isMain, same, column, declared,
    valueEq⟩

end Setup
end SymbolicLogic
