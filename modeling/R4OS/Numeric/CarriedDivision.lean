import Mathlib.Data.Nat.Basic
import Mathlib.Tactic.Ring

/-!
# Division with a carried remainder

Amounts that arrive one by one are divided one by one.  When every division hands its remainder on to
the next one, the quotients add up to the quotient of the sum, however the sum was cut.
-/

namespace R4OS.Numeric

/-- The sum of the quotients so far and the remainder that the next division takes over. -/
structure Carried where
  whole : Nat := 0
  remainder : Nat := 0

namespace Carried

variable {carried : Carried} {divisor total : Nat}

/-- Divide one more amount. -/
def add (carried : Carried) (divisor amount : Nat) : Carried where
  whole := carried.whole + (amount + carried.remainder) / divisor
  remainder := (amount + carried.remainder) % divisor

/-- The quotients and the remainder are those of a total. -/
structure Divides (carried : Carried) (divisor total : Nat) : Prop where
  whole : carried.whole = total / divisor
  remainder : carried.remainder = total % divisor

theorem Divides.add (divides : Divides carried divisor total) (positive : 0 < divisor)
    (amount : Nat) : Divides (carried.add divisor amount) divisor (total + amount) := by
  have split : total + amount = divisor * carried.whole + (amount + carried.remainder) := by
    rw [divides.whole, divides.remainder]
    have parts := Nat.div_add_mod total divisor
    omega
  refine ⟨?_, ?_⟩
  · rw [split, Nat.mul_add_div positive]
    rfl
  · rw [split, Nat.mul_add_mod]
    rfl

end Carried

end R4OS.Numeric
