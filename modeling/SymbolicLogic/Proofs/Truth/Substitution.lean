import SymbolicLogic.Proofs.Truth.Agreement
import SymbolicLogic.Session.Instantiation

/-!
# Columns of formulas with substitutions

A substitution that is pending at a negation or a binary formula is passed over when
the formula is taken apart. So the column of the formula need not be that of the
formula with its substitutions carried out. The two agree in every row in which
carrying out does not change the values of the basic parts.
-/

namespace SymbolicLogic

open Session

namespace Setup

variable {language : Language} {setup : Setup} {table : Table}

/-- Let one main formula of a table that was built be another one with its
substitutions carried out. Their basic parts correspond to each other. Their columns
have equal values in each row in which corresponding parts have, and in all rows if
corresponding parts are the same. -/
theorem carried_out_columns
    (built : setup.build language = .ok table)
    {first second : Nat}
    {formula carried : Formula}
    (main : table.mains[first]? = some formula)
    (main' : table.mains[second]? = some carried)
    (same : (empty.resolveFormula formula).same carried = true) :
    formula.basicParts.length = carried.basicParts.length ∧
    ∃ position position',
      table.mainColumns[first]? = some position ∧
      table.mainColumns[second]? = some position' ∧
      (∀ row interpretation,
        table.interpretations[row]? = some interpretation ->
        List.Forall₂
          (fun part part' =>
            part.evaluate? table.basics interpretation =
              part'.evaluate? table.basics interpretation)
          formula.basicParts carried.basicParts ->
        ∃ value, table.value? position row = some value ∧
          table.value? position' row = some value) ∧
      (List.Forall₂ (fun part part' => part.same part' = true)
          formula.basicParts carried.basicParts ->
        table.Agree position position') := by
  have builtAlike : Formula.BuiltAlike (fun _ _ => True) formula carried :=
    formula.builtAlike_carryOut.trans (Formula.builtAlike_of_same same)
  obtain ⟨position, position', found, found', agree⟩ :=
    exists_value?_mains built main main'
  refine ⟨builtAlike.forall₂_basicParts.length_eq, position, position', found,
    found', ?_, fun parts row inside => ?_⟩
  · intro row interpretation inRow parts
    exact agree inRow (builtAlike.of_forall₂ parts).evaluate?_eq
  · refine agree (getElem?_interpretations built inside) ?_
    refine (builtAlike.of_forall₂ (parts.imp fun part part' same => ?_)).evaluate?_eq
    exact Formula.evaluate?_of_same same fun _ _ _ _ => rfl

/-- The substitution of `b` for `x` in `(Fa ∧ Fa)` changes nothing, and the columns of
the formula with and without it agree. -/
theorem carried_out_columns_idle :
    ∃ table,
      build ⟨["Fa"], ["(Fa ∧ Fa)[b/x]", "(Fa ∧ Fa)"], none, 2⟩ .predicate =
        .ok table ∧
      ∃ position position',
        table.mainColumns[0]? = some position ∧
          table.mainColumns[1]? = some position' ∧
          table.Agree position position' := by
  have builds : succeedsWith
      (build ⟨["Fa"], ["(Fa ∧ Fa)[b/x]", "(Fa ∧ Fa)"], none, 2⟩ .predicate)
      (fun table =>
        table.mains[0]?.any fun formula => table.mains[1]?.any fun carried =>
          formula.transform?.isSome &&
            (empty.resolveFormula formula).same carried &&
            decide (List.Forall₂ (fun part part' => part.same part' = true)
              formula.basicParts carried.basicParts)) = true := by
    decide +kernel
  obtain ⟨table, built, test⟩ := exists_of_succeedsWith builds
  simp only [Option.any_eq_true, Bool.and_eq_true, decide_eq_true_eq] at test
  obtain ⟨formula, main, carried, main', ⟨-, same⟩, parts⟩ := test
  obtain ⟨-, position, position', found, found', -, agree⟩ :=
    carried_out_columns built main main' same
  exact ⟨table, built, position, position', found, found', agree parts⟩

/-- With `a` put for `x`, the formula `(Fx ∧ Fx)` becomes `(Fa ∧ Fa)`. No declared
formula and no basic part has a substitution. But in the second row, where `Fa` is
true and `Fx` is false, the values of the two main formulas differ. -/
theorem carried_out_columns_differ :
    ∃ table formula carried,
      build ⟨["Fa", "Fx"], ["(Fx ∧ Fx)[a/x]", "(Fa ∧ Fa)"], none, 4⟩ .predicate =
        .ok table ∧
      table.mains[0]? = some formula ∧ table.mains[1]? = some carried ∧
      (empty.resolveFormula formula).same carried = true ∧
      (∀ part ∈ table.basics ++ formula.basicParts ++ carried.basicParts,
        part.transform?.isNone = true) ∧
      table.mainColumns[0]? = some 4 ∧ table.mainColumns[1]? = some 8 ∧
      table.value? 4 1 = some false ∧ table.value? 8 1 = some true := by
  have builds : succeedsWith
      (build ⟨["Fa", "Fx"], ["(Fx ∧ Fx)[a/x]", "(Fa ∧ Fa)"], none, 4⟩ .predicate)
      (fun table =>
        table.mains[0]?.any fun formula => table.mains[1]?.any fun carried =>
          table.interpretations[1]?.any fun interpretation =>
            (empty.resolveFormula formula).same carried &&
              (table.basics ++ formula.basicParts ++ carried.basicParts).all
                (fun part => part.transform?.isNone) &&
              table.mainColumns[0]? == some 4 && table.mainColumns[1]? == some 8 &&
              formula.evaluate? table.basics interpretation == some false &&
              carried.evaluate? table.basics interpretation == some true) =
      true := by
    decide +kernel
  obtain ⟨table, built, test⟩ := exists_of_succeedsWith builds
  simp only [Option.any_eq_true, Bool.and_eq_true, beq_iff_eq, List.all_eq_true]
    at test
  obtain ⟨formula, main, carried, main', interpretation, inRow, ⟨⟨⟨⟨same, plain⟩,
    column⟩, column'⟩, computed⟩, computed'⟩ := test
  obtain ⟨position, found, values⟩ := exists_value?_main built main
  obtain ⟨position', found', values'⟩ := exists_value?_main built main'
  obtain ⟨value, valueEq, evaluated⟩ := values inRow
  obtain ⟨value', valueEq', evaluated'⟩ := values' inRow
  cases column.symm.trans found
  cases column'.symm.trans found'
  cases computed.symm.trans evaluated
  cases computed'.symm.trans evaluated'
  exact ⟨table, formula, carried, built, main, main', same, plain, column, column',
    valueEq, valueEq'⟩

end Setup
end SymbolicLogic
