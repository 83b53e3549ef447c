import Mathlib.Data.Set.Function
import SymbolicLogic.Proofs.Outcome
import SymbolicLogic.Proofs.Truth.Agreement

/-!
# Rows and interpretations

Read as a binary number, with the digit one for falsity, an interpretation is the
number of its row. So the rows are all interpretations, each of them once, and they are
in lexicographic order, truth before falsity. The computation needs no more than words
as long as the number of rows is one: none of its shifts is by the whole length of a
word.
-/

namespace SymbolicLogic
namespace Interpretation

variable {n row row' : Nat} {first second : Interpretation}

/-- The row that an interpretation is in. The first value counts most. -/
def toRow : Interpretation -> Nat
  | [] => 0
  | true :: values => toRow values
  | false :: values => 2 ^ values.length + toRow values

/-- One more basic formula in front has the highest bit. -/
theorem ofRow_succ (n row : Nat) :
    ofRow (n + 1) row = (!row.testBit n) :: ofRow n row := by
  simp only [ofRow, List.range_succ_eq_map, List.map_cons, List.map_map]
  refine congrArg₂ List.cons rfl (List.map_congr_left fun place _ => ?_)
  rw [Function.comp_apply, Nat.succ_eq_add_one, Nat.add_sub_cancel,
    Nat.sub_sub, Nat.add_comm 1 place]

/-- Higher bits have no bearing on an interpretation. -/
theorem ofRow_pow_add (n row : Nat) : ofRow n (2 ^ n + row) = ofRow n row := by
  refine List.map_congr_left fun place member => ?_
  have inside : place < n := List.mem_range.mp member
  rw [Nat.testBit_two_pow_add_gt (by omega)]

/-- The number of an interpretation is below the number of rows. -/
theorem toRow_lt (values : Interpretation) : toRow values < 2 ^ values.length := by
  induction values with
  | nil => exact Nat.one_pos
  | cons value values inductionHypothesis =>
      rw [List.length_cons, Nat.pow_succ]
      cases value <;> simp only [toRow] <;> omega

/-- An interpretation is the one of its row. -/
theorem ofRow_toRow (values : Interpretation) :
    ofRow values.length (toRow values) = values := by
  induction values with
  | nil => rfl
  | cons value values inductionHypothesis =>
      have clear : (toRow values).testBit values.length = false :=
        Nat.testBit_lt_two_pow (toRow_lt values)
      rw [List.length_cons, ofRow_succ]
      cases value with
      | true => rw [toRow, clear, inductionHypothesis, Bool.not_false]
      | false =>
          rw [toRow, Nat.testBit_two_pow_add_eq, clear, ofRow_pow_add,
            inductionHypothesis, Bool.not_false, Bool.not_true]

/-- A row is the one of its interpretation. -/
theorem toRow_ofRow (inside : row < 2 ^ n) : toRow (ofRow n row) = row := by
  induction n generalizing row with
  | zero => exact (Nat.lt_one_iff.mp inside).symm
  | succ n inductionHypothesis =>
      rw [ofRow_succ]
      rcases Nat.lt_or_ge row (2 ^ n) with lower | upper
      · rw [Nat.testBit_lt_two_pow lower, Bool.not_false, toRow,
          inductionHypothesis lower]
      · obtain ⟨rest, rfl⟩ := Nat.exists_eq_add_of_le upper
        rw [Nat.pow_succ] at inside
        have lower : rest < 2 ^ n := by omega
        rw [Nat.testBit_two_pow_add_eq, Nat.testBit_lt_two_pow lower, ofRow_pow_add,
          Bool.not_false, Bool.not_true, toRow, length_ofRow,
          inductionHypothesis lower]

/-- Truth comes before falsity, and the first difference decides. -/
def Precedes (first second : Interpretation) : Prop :=
  List.Lex (fun value value' => value = true ∧ value' = false) first second

/-- Of two interpretations of the same formulas, the one with the smaller row comes
first. -/
theorem precedes_of_toRow_lt
    (lengths : first.length = second.length)
    (before : toRow first < toRow second) : first.Precedes second := by
  induction first generalizing second with
  | nil =>
      cases List.length_eq_zero_iff.mp lengths.symm
      exact absurd before (Nat.lt_irrefl _)
  | cons value values inductionHypothesis =>
      cases second with
      | nil => cases lengths
      | cons value' values' =>
          have tails : values.length = values'.length := Nat.succ.inj lengths
          have bound := toRow_lt values'
          rw [← tails] at bound
          cases value <;> cases value' <;> simp only [toRow, ← tails] at before
          · exact .cons (inductionHypothesis tails (by omega))
          · omega
          · exact .rel ⟨rfl, rfl⟩
          · exact .cons (inductionHypothesis tails before)

/-- The interpretations of smaller numbers come first in order. -/
theorem precedes_ofRow (before : row < row') (inside : row' < 2 ^ n) :
    (ofRow n row).Precedes (ofRow n row') := by
  refine precedes_of_toRow_lt (by simp) ?_
  rw [toRow_ofRow (before.trans inside), toRow_ofRow inside]
  exact before

/-- A shift by less than the length of a word. -/
def shiftRight? (word : UInt64) (amount : Nat) : Option UInt64 :=
  if amount < rowBits then some (word >>> UInt64.ofNat amount) else none

/-- A shift by less than the length of a word. -/
def shiftLeft? (word : UInt64) (amount : Nat) : Option UInt64 :=
  if amount < rowBits then some (word <<< UInt64.ofNat amount) else none

/-- The interpretation in a row, computed with words: each bit is brought to the lowest
place. -/
def ofWord? (n : Nat) (row : UInt64) : Option Interpretation :=
  (List.range n).mapM fun place =>
    (shiftRight? row (n - 1 - place)).map fun shifted => shifted &&& 1 == 0

/-- All interpretations, computed with words. -/
def allByWords? (n : Nat) : Option (List Interpretation) :=
  (shiftLeft? 1 n).bind fun rows =>
    (List.range rows.toNat).mapM fun row => ofWord? n (UInt64.ofNat row)

/-- An amount below the word size is not reduced in a shift. -/
theorem toNat_ofNat_amount {amount : Nat} (inside : amount < rowBits) :
    (UInt64.ofNat amount).toNat % 64 = amount := by
  rw [rowBits] at inside
  rw [UInt64.toNat_ofNat_of_lt' (by rw [UInt64.size]; omega), Nat.mod_eq_of_lt inside]

/-- The lowest bit of a shifted word is the bit of the word at the amount. -/
theorem lowest_shiftRight
    (word : UInt64)
    {amount : Nat}
    (inside : amount < rowBits) :
    ((word >>> UInt64.ofNat amount) &&& 1 == 0) = !word.toNat.testBit amount := by
  have value : ((word >>> UInt64.ofNat amount) &&& 1).toNat =
      1 &&& word.toNat >>> amount := by
    rw [UInt64.toNat_and, UInt64.toNat_shiftRight, toNat_ofNat_amount inside,
      Nat.and_comm]
    rfl
  rw [Nat.testBit, bne, Bool.not_not, ← value, Bool.eq_iff_iff, beq_iff_eq, beq_iff_eq,
    ← UInt64.toNat_inj]
  rfl

/-- Words suffice for an interpretation of up to as many formulas as a word has
bits. -/
theorem ofWord?_eq_some (fits : n ≤ rowBits) (row : UInt64) :
    ofWord? n row = some (ofRow n row.toNat) := by
  refine mapM_eq_some fun place member => ?_
  have inside : n - 1 - place < rowBits := by
    have := List.mem_range.mp member
    omega
  rw [shiftRight?, if_pos inside, Option.map_some, lowest_shiftRight row inside]

/-- The number of rows is a word if a word has a bit for each formula, and one more. -/
theorem shiftLeft?_one (fits : n < rowBits) :
    ∃ rows, shiftLeft? 1 n = some rows ∧ rows.toNat = rowCount n := by
  refine ⟨_, if_pos fits, ?_⟩
  rw [UInt64.toNat_shiftLeft, toNat_ofNat_amount fits, rowCount_eq_pow, Nat.shiftLeft_eq,
    UInt64.toNat_one, Nat.one_mul]
  exact Nat.mod_eq_of_lt (Nat.pow_lt_pow_right Nat.one_lt_two fits)

/-- Computing with words gives all interpretations of fewer formulas than a word has bits. -/
theorem allByWords?_eq_some (fits : n < rowBits) : allByWords? n = some (all n) := by
  obtain ⟨rows, shifted, count⟩ := shiftLeft?_one fits
  rw [allByWords?, shifted, Option.bind_some, count, all]
  refine mapM_eq_some fun row member => ?_
  have inside : row < UInt64.size :=
    (List.mem_range.mp member).trans (count ▸ rows.toNat_lt)
  rw [ofWord?_eq_some fits.le, UInt64.toNat_ofNat_of_lt' inside]

/-- As long as there are fewer formulas than bits of a row number, the rows are all
interpretations, once each, in lexicographic order, and words suffice to compute
them. -/
theorem all_in_order (n : Nat) (fits : n < rowBits) :
    Set.BijOn (ofRow n) {row | row < 2 ^ n}
        {interpretation | interpretation.length = n} ∧
      (∀ row row', row < row' -> row' < 2 ^ n ->
        (ofRow n row).Precedes (ofRow n row')) ∧
      rowCount? n = some (2 ^ n) ∧
      all n = (List.range (2 ^ n)).map (ofRow n) ∧
      (∀ row, ofWord? n row = some (ofRow n row.toNat)) ∧
      allByWords? n = some (all n) := by
  refine ⟨?_, fun _ _ => precedes_ofRow, ?_, ?_, ofWord?_eq_some fits.le,
    allByWords?_eq_some fits⟩
  · refine Set.InvOn.bijOn ⟨fun row inside => toRow_ofRow inside, ?_⟩
      (fun row _ => length_ofRow n row) ?_
    · rintro values rfl
      exact ofRow_toRow values
    · rintro values rfl
      exact toRow_lt values
  · rw [rowCount?, if_pos fits, rowCount_eq_pow]
  · rw [all, rowCount_eq_pow]

/-- With 63 formulas, the count still is a word, and the last row is the one in which
all formulas are false. -/
theorem all_in_order_most :
    63 < rowBits ∧ rowCount? 63 = some 9223372036854775808 ∧
      allByWords? 63 = some (all 63) ∧
      ofWord? 63 9223372036854775807 = some (List.replicate 63 false) ∧
      (ofRow 63 0).Precedes (ofRow 63 9223372036854775807) := by
  have fits : 63 < rowBits := by decide
  obtain ⟨-, order, count, -, row, rows⟩ := all_in_order 63 fits
  refine ⟨fits, count, rows, (row _).trans ?_, order _ _ (by decide) (by decide)⟩
  decide

example : all 2 = [[true, true], [true, false], [false, true], [false, false]] := by
  decide

end Interpretation
end SymbolicLogic
