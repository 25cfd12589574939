import Mathlib.Data.List.Basic

/-!
# Calls that keep a failure

A component answers calls one after the other.  It fails closed when no call delivers anything behind a
call that failed.
-/

namespace R4OS.Incremental

variable {State Call Answer : Type*}

def answers (step : State → Call → Answer × State) : State → List Call → List Answer
  | _, [] => []
  | state, call :: rest => (step state call).1 :: answers step (step state call).2 rest

def Allowed (step : State → Call → Answer × State) (allows : State → Call → Prop) :
    State → List Call → Prop
  | _, [] => True
  | state, call :: rest => allows state call ∧ Allowed step allows (step state call).2 rest

def FailsClosed (Failed Delivers : Answer → Prop) (replies : List Answer) : Prop :=
  replies.Pairwise fun early late => Failed early → ¬ Delivers late

/-- An answer that failed left a state that never delivers again. -/
def Latched (Failed : Answer → Prop) (Dead : State → Prop) (result : Answer × State) : Prop :=
  Failed result.1 → Dead result.2

/-- A component whose failures under allowed calls lead from good states to states that never deliver
again. -/
structure Latches (step : State → Call → Answer × State) (allows : State → Call → Prop)
    (Failed Delivers : Answer → Prop) (Good Dead : State → Prop) : Prop where
  kept : ∀ {state} call, Good state → Good (step state call).2
  latched : ∀ {state call}, Good state → allows state call → Latched Failed Dead (step state call)
  stays : ∀ {state} call, Dead state → Dead (step state call).2
  silent : ∀ {state} call, Dead state → ¬ Delivers (step state call).1

section Latch

variable {step : State → Call → Answer × State} {allows : State → Call → Prop}
  {Failed Delivers : Answer → Prop} {Good Dead : State → Prop} {state : State}

theorem Latches.dead_silent (latches : Latches step allows Failed Delivers Good Dead) (calls : List Call)
    (dead : Dead state) : ∀ reply ∈ answers step state calls, ¬ Delivers reply := by
  induction calls generalizing state with
  | nil => exact fun reply member => nomatch member
  | cons call rest induction =>
    intro reply member
    rcases List.mem_cons.mp member with same | later
    · rw [same]
      exact latches.silent call dead
    · exact induction (latches.stays call dead) reply later

theorem Latches.failsClosed (latches : Latches step allows Failed Delivers Good Dead) (calls : List Call)
    (good : Good state) (allowed : Allowed step allows state calls) :
    FailsClosed Failed Delivers (answers step state calls) := by
  induction calls generalizing state with
  | nil => exact List.Pairwise.nil
  | cons call rest induction =>
    refine List.Pairwise.cons (fun reply member failed => ?_)
      (induction (latches.kept call good) allowed.2)
    exact latches.dead_silent rest (latches.latched good allowed.1 failed) reply member

theorem allowed_of_forall (every : ∀ state call, allows state call) (calls : List Call) :
    Allowed step allows state calls := by
  induction calls generalizing state with
  | nil => trivial
  | cons call rest induction => exact ⟨every state call, induction⟩

end Latch

end R4OS.Incremental
