import Mathlib.Data.Nat.Basic

/-!
# Machines that read a growing input

A machine takes turns over an input that may still grow.  A turn goes on, waits for more input or stops
with an answer.  When a turn that was taken stands however the input grows, a machine that was run on
any growing inputs ends as if it had been run on the last input alone.
-/

namespace R4OS.Incremental

variable {Input State Image Answer : Type*}

inductive Turn (State Answer : Type*)
  | next (state : State)
  | wait (state : State)
  | stop (state : State) (answer : Answer)

/-- The same turn over other states. -/
def Turn.map (view : State → Image) : Turn State Answer → Turn Image Answer
  | .next state => .next (view state)
  | .wait state => .wait (view state)
  | .stop state answer => .stop (view state) answer

def Turn.state : Turn State Answer → State
  | .next state => state
  | .wait state => state
  | .stop state _ => state

def Turn.Going (property : State → Prop) : Turn State Answer → Prop
  | .next state => property state
  | .wait state => property state
  | .stop _ _ => True

theorem Turn.state_map (view : State → Image) (turn : Turn State Answer) :
    (turn.map view).state = view turn.state := by
  cases turn <;> rfl

variable {state after : State}

theorem Turn.next_ne_wait :
    (.next state : Turn State Answer) ≠ .wait after := nofun

theorem Turn.next_ne_stop {answer : Answer} :
    (.next state : Turn State Answer) ≠ .stop after answer := nofun

theorem Turn.wait_ne_stop {answer : Answer} :
    (.wait state : Turn State Answer) ≠ .stop after answer := nofun

theorem Turn.stop_ne_wait {answer : Answer} :
    (.stop state answer : Turn State Answer) ≠ .wait after := nofun

/-- A turn stands when it is the later turn, or waited in a state that takes the later turn. -/
def Turn.Stands (early : Turn State Answer) (again : State → Turn State Answer)
    (late : Turn State Answer) : Prop :=
  match early with
  | .next state => late = .next state
  | .wait state => again state = late
  | .stop state answer => late = .stop state answer

/-- A machine whose turns that go on leave less to do. -/
structure Machine (Input State Answer : Type*) where
  /-- The turn that a state takes over an input. -/
  turn : Input → State → Turn State Answer
  /-- What is left to do. -/
  work : Input → State → Nat
  /-- Going on is progress. -/
  advances : ∀ {input state after}, turn input state = .next after → work input after < work input state

namespace Machine

/-- Take turns until one waits, which answers nothing, or stops. -/
def run (machine : Machine Input State Answer) (input : Input) (state : State) :
    Option Answer × State :=
  match _taken : machine.turn input state with
  | .next after => machine.run input after
  | .wait after => (none, after)
  | .stop after answer => (some answer, after)
termination_by machine.work input state
decreasing_by exact machine.advances _taken

section Run

variable {machine : Machine Input State Answer} {input : Input} {state after : State} {answer : Answer}

theorem run_next (taken : machine.turn input state = .next after) :
    machine.run input state = machine.run input after := by
  rw [run]
  split
  · next other same =>
      rw [taken] at same
      cases same
      rfl
  · next other same => rw [taken] at same; cases same
  · next other reply same => rw [taken] at same; cases same

theorem run_wait (taken : machine.turn input state = .wait after) :
    machine.run input state = (none, after) := by
  rw [run]
  split
  · next other same => rw [taken] at same; cases same
  · next other same =>
      rw [taken] at same
      cases same
      rfl
  · next other reply same => rw [taken] at same; cases same

theorem run_stop (taken : machine.turn input state = .stop after answer) :
    machine.run input state = (some answer, after) := by
  rw [run]
  split
  · next other same => rw [taken] at same; cases same
  · next other same => rw [taken] at same; cases same
  · next other reply same =>
      rw [taken] at same
      cases same
      rfl

theorem run_induction {motive : State → Prop} (machine : Machine Input State Answer) (input : Input)
    (next : ∀ state after, machine.turn input state = .next after → motive after → motive state)
    (wait : ∀ state after, machine.turn input state = .wait after → motive state)
    (stop : ∀ state after answer, machine.turn input state = .stop after answer → motive state)
    (state : State) : motive state := by
  induction left : machine.work input state using Nat.strong_induction_on generalizing state with
  | _ number induction =>
    cases taken : machine.turn input state with
    | next after => exact next state after taken (induction _ (left ▸ machine.advances taken) after rfl)
    | wait after => exact wait state after taken
    | stop after answer => exact stop state after answer taken

theorem run_kept {property : State → Prop}
    (kept : ∀ state, property state → property (machine.turn input state).state)
    (start : property state) : property (machine.run input state).2 := by
  induction state using run_induction machine input with
  | next state after taken induction =>
    have one := kept state start
    rw [taken] at one
    rw [run_next taken]
    exact induction one
  | wait state after taken =>
    have one := kept state start
    rw [taken] at one
    rw [run_wait taken]
    exact one
  | stop state after answer taken =>
    have one := kept state start
    rw [taken] at one
    rw [run_stop taken]
    exact one

theorem run_last {property : State → Prop}
    (kept : ∀ state, property state → (machine.turn input state).Going property)
    (start : property state) (stopped : (machine.run input state).1 = some answer) :
    ∃ before, property before ∧ machine.turn input before = .stop (machine.run input state).2 answer := by
  induction state using run_induction machine input with
  | next state after taken induction =>
    have one := kept state start
    rw [taken] at one
    rw [run_next taken] at stopped ⊢
    exact induction one stopped
  | wait state after taken =>
    rw [run_wait taken] at stopped
    cases stopped
  | stop state after reply taken =>
    rw [run_stop taken] at stopped ⊢
    cases stopped
    exact ⟨state, start, taken⟩

end Run

/-- Turns of good states that stand however the input grows. -/
structure Stable (machine : Machine Input State Answer) (Grows : Input → Input → Prop)
    (Good : State → Prop) : Prop where
  stands : ∀ {early late state}, Grows early late → Good state →
    (machine.turn early state).Stands (machine.turn late) (machine.turn late state)
  kept : ∀ input {state}, Good state → Good (machine.turn input state).state

section Growth

variable {machine : Machine Input State Answer} {Grows : Input → Input → Prop} {Good : State → Prop}
  {early late : Input} {state : State}

theorem run_congr {other : State} (same : machine.turn late other = machine.turn late state) :
    machine.run late other = machine.run late state := by
  cases taken : machine.turn late state with
  | next after => rw [run_next taken, run_next (same.trans taken)]
  | wait after => rw [run_wait taken, run_wait (same.trans taken)]
  | stop after answer => rw [run_stop taken, run_stop (same.trans taken)]

/-- A run that waited goes on as if it had not been there, and a run that stopped would have stopped
over every longer input. -/
theorem Stable.run_grown (stable : machine.Stable Grows Good) (grown : Grows early late)
    (good : Good state) :
    ((machine.run early state).1 = none →
      machine.run late (machine.run early state).2 = machine.run late state) ∧
    ((machine.run early state).1 ≠ none → machine.run late state = machine.run early state) := by
  induction state using run_induction machine early with
  | next state after taken induction =>
    have stands := stable.stands grown good
    have kept := stable.kept early good
    rw [taken] at stands kept
    rw [run_next taken, run_next stands]
    exact induction kept
  | wait state after taken =>
    have stands := stable.stands grown good
    rw [taken] at stands
    rw [run_wait taken]
    exact ⟨fun _ => run_congr stands, fun stopped => absurd rfl stopped⟩
  | stop state after answer taken =>
    have stands := stable.stands grown good
    rw [taken] at stands
    rw [run_stop taken, run_stop stands]
    exact ⟨nofun, fun _ => rfl⟩

end Growth

/-- A machine that takes the turns of another one over the images of its good states. -/
structure Simulates (ideal : Machine Input Image Answer) (machine : Machine Input State Answer)
    (view : State → Image) (Good : Input → State → Prop) : Prop where
  turn : ∀ {input state}, Good input state →
    ideal.turn input (view state) = (machine.turn input state).map view
  kept : ∀ input {state}, Good input state → (machine.turn input state).Going (Good input)

theorem Simulates.run {ideal : Machine Input Image Answer} {machine : Machine Input State Answer}
    {view : State → Image} {Good : Input → State → Prop}
    (simulates : ideal.Simulates machine view Good) {input : Input} {state : State}
    (good : Good input state) :
    ideal.run input (view state) = ((machine.run input state).1, view (machine.run input state).2) ∧
      ((machine.run input state).1 = none → Good input (machine.run input state).2) := by
  induction state using run_induction machine input with
  | next state after taken induction =>
    have image := simulates.turn good
    have kept := simulates.kept input good
    rw [taken] at image kept
    rw [run_next image, run_next taken]
    exact induction kept
  | wait state after taken =>
    have image := simulates.turn good
    have kept := simulates.kept input good
    rw [taken] at image kept
    rw [run_wait image, run_wait taken]
    exact ⟨rfl, fun _ => kept⟩
  | stop state after answer taken =>
    have image := simulates.turn good
    rw [taken] at image
    rw [run_stop image, run_stop taken]
    exact ⟨rfl, nofun⟩

end Machine

end R4OS.Incremental
