import Mathlib.Logic.Basic

/-!
# Checks in sequence

A computation that answers a value has passed every check on the way.
-/

namespace R4OS.Incremental

variable {Error First Second State Item : Type}

/-- A sequence answers a value when both of its parts do. -/
theorem bind_eq_ok {first : Except Error First} {rest : First → Except Error Second}
    {result : Second} :
    (first >>= rest) = .ok result ↔ ∃ value, first = .ok value ∧ rest value = .ok result := by
  cases first with
  | error error | ok value => simp [bind, Except.bind]

/-- What every part of a sequence keeps, the whole sequence keeps. -/
theorem foldlM_keeps {step : State → Item → Except Error State} {Holds : State → Prop}
    (kept : ∀ state item after, Holds state → step state item = .ok after → Holds after)
    {items : List Item} {start last : State} (holds : Holds start)
    (done : items.foldlM step start = .ok last) : Holds last := by
  induction items generalizing start with
  | nil =>
    cases done
    exact holds
  | cons item rest induction =>
    rw [List.foldlM_cons] at done
    obtain ⟨after, stepped, done⟩ := bind_eq_ok.mp done
    exact induction (kept start item after holds stepped) done

end R4OS.Incremental
