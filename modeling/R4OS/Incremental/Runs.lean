import Mathlib.Data.List.Basic

/-!
# Runs of calls

A component meets calls one after the other.  What every allowed call keeps holds after every run of
allowed calls.
-/

namespace R4OS.Incremental

variable {State Call : Type*}

def AllowedRun (step : State → Call → State) (allows : State → Call → Prop) :
    State → List Call → Prop
  | _, [] => True
  | state, call :: rest => allows state call ∧ AllowedRun step allows (step state call) rest

instance AllowedRun.decidable {step : State → Call → State} {allows : State → Call → Prop}
    [∀ state call, Decidable (allows state call)] :
    ∀ state calls, Decidable (AllowedRun step allows state calls)
  | _, [] => .isTrue trivial
  | state, call :: rest =>
    letI : Decidable (AllowedRun step allows (step state call) rest) := AllowedRun.decidable _ rest
    inferInstanceAs (Decidable (allows state call ∧ _))

section Runs

variable {step : State → Call → State} {allows : State → Call → Prop} {Holds : State → Prop}
  {state : State} {calls : List Call}

theorem AllowedRun.keeps (allowed : AllowedRun step allows state calls)
    (kept : ∀ state call, Holds state → allows state call → Holds (step state call))
    (start : Holds state) : Holds (calls.foldl step state) := by
  induction calls generalizing state with
  | nil => exact start
  | cons call rest induction => exact induction allowed.2 (kept state call start allowed.1)

theorem run_keeps (kept : ∀ state call, Holds state → Holds (step state call)) (start : Holds state)
    (calls : List Call) : Holds (calls.foldl step state) := by
  induction calls generalizing state with
  | nil => exact start
  | cons call rest induction => exact induction (kept state call start)

end Runs

end R4OS.Incremental
