/-!
# Attempts

Grading may be tried a limited number of times. A failure uses up an attempt and
so does a success; when none is left, nothing counts any more.
-/

namespace SymbolicLogic

/-- The attempts made, out of those granted. -/
structure Attempts where
  used : Nat
  granted : Nat
  deriving DecidableEq, Repr

/-- What an attempt comes to. -/
inductive AttemptOutcome
  | passed
  | retry (remaining : Nat)
  | exhausted
  deriving DecidableEq, Repr

namespace Attempts

/-- No attempt made yet. -/
def start (granted : Nat) : Attempts :=
  ⟨0, granted⟩

def remaining (attempts : Attempts) : Nat :=
  attempts.granted - attempts.used

/-- Count one attempt, which passed or did not. -/
def record (attempts : Attempts) (pass : Bool) : AttemptOutcome × Attempts :=
  if attempts.remaining = 0 then (.exhausted, attempts)
  else
    let attempts := { attempts with used := attempts.used + 1 }
    if pass then (.passed, attempts)
    else if attempts.remaining = 0 then (.exhausted, attempts)
    else (.retry attempts.remaining, attempts)

/-- No more attempts are used than were granted. -/
theorem used_record_le
    {attempts : Attempts}
    (within : attempts.used <= attempts.granted)
    (pass : Bool) :
    (attempts.record pass).2.used <= (attempts.record pass).2.granted := by
  unfold record
  by_cases none : attempts.remaining = 0
  · simpa [none] using within
  · have left : attempts.used + 1 <= attempts.granted := by
      simp only [remaining] at none
      omega
    simp only [none, if_false]
    split
    · exact left
    · split <;> exact left

end Attempts
end SymbolicLogic
