/-!
# TOML numbers

Integers of any size, numbers with a fraction or an exponent, and which of them
a reader can hold: an integer must fit into 128 bits, with a sign or without,
and a finite number must not round to infinity in double precision.
-/

namespace SymbolicLogic
namespace Toml

/-- Integers that fit into 128 bits, with a sign or without. -/
def isBounded : Int -> Bool
  | .ofNat number => number < 1 <<< 128
  | .negSucc number => number < 1 <<< 127

/-- A number with a fraction or an exponent. -/
inductive Floating
  /-- The coefficient times ten to the exponent. -/
  | finite (isNegative : Bool) (coefficient : Nat) (exponent : Int)
  | infinite (isNegative : Bool)
  | undefined
  deriving DecidableEq, Repr

namespace Floating

/-- The least number that rounds to infinity. It lies halfway between the
greatest finite double and the next power of two. -/
def overflow : Nat :=
  (1 <<< 1024) - (1 <<< 970)

/-- Whether the coefficient times ten to the exponent is less than `limit`. An
exponent that decides the matter alone is not carried out. -/
def isBelow (limit coefficient : Nat) : Int -> Bool
  | .ofNat power =>
      coefficient = 0 ||
        (power <= limit.log2 && coefficient * Nat.pow 10 power < limit)
  | .negSucc power =>
      coefficient.log2 <= power ||
        coefficient / Nat.pow 10 (power + 1) < limit

/-- A number has no more decimal digits than it has binary ones. -/
theorem lt_pow_log2_succ (number : Nat) :
    number < Nat.pow 10 (number.log2 + 1) :=
  Nat.lt_of_lt_of_le Nat.lt_log2_self (Nat.pow_le_pow_left (by decide) _)

/-- The bound on the power costs nothing: a greater one is too much for every
coefficient but zero. -/
theorem isBelow_ofNat_iff
    {limit : Nat}
    (positive : 0 < limit)
    (coefficient power : Nat) :
    isBelow limit coefficient (.ofNat power) = true ↔
      coefficient * Nat.pow 10 power < limit := by
  by_cases zero : coefficient = 0
  · simp [isBelow, zero, positive]
  · by_cases small : power <= limit.log2
    · simp [isBelow, zero, small]
    · have large : limit < Nat.pow 10 power :=
        Nat.lt_of_lt_of_le (lt_pow_log2_succ limit)
          (Nat.pow_le_pow_right (by decide) (by omega))
      have scaled : Nat.pow 10 power <= coefficient * Nat.pow 10 power :=
        Nat.le_mul_of_pos_left _ (Nat.pos_of_ne_zero zero)
      have exceeded : ¬coefficient * Nat.pow 10 power < limit := by omega
      simp [isBelow, zero, small] at exceeded ⊢
      exact exceeded

/-- A power with more digits than the coefficient has bits leaves nothing of
it. -/
theorem isBelow_negSucc_iff
    {limit : Nat}
    (positive : 0 < limit)
    (coefficient power : Nat) :
    isBelow limit coefficient (.negSucc power) = true ↔
      coefficient / Nat.pow 10 (power + 1) < limit := by
  by_cases small : coefficient.log2 <= power
  · have few : coefficient < Nat.pow 10 (power + 1) :=
      Nat.lt_of_lt_of_le (lt_pow_log2_succ coefficient)
        (Nat.pow_le_pow_right (by decide) (by omega))
    have nothing : coefficient / Nat.pow 10 (power + 1) = 0 :=
      Nat.div_eq_of_lt few
    rw [nothing]
    simp [isBelow, small, positive]
  · simp [isBelow, small]

/-- Numbers that do not overflow. -/
def isBounded : Floating -> Bool
  | .finite _ coefficient exponent => isBelow overflow coefficient exponent
  | .infinite _ => true
  | .undefined => true

/-- The text of a number, with an exponent if it is finite. -/
def text : Floating -> String
  | .finite isNegative coefficient exponent =>
      (if isNegative then "-" else "") ++ toString coefficient ++ "e" ++
        toString exponent
  | .infinite isNegative => if isNegative then "-inf" else "inf"
  | .undefined => "nan"

end Floating
end Toml
end SymbolicLogic
