import Mathlib.Logic.Relation

/-!
# Client programs and crash executions

A client program is a tree of operation calls.  A device answers each call by a transition of its
world.  An execution may stop before any call, which is a crash; a crash inside a call is a crash
before it or directly after its transition.  The rules below prove one assertion at every point an
execution can stop at and another one at its normal end.
-/

namespace R4OS.Crash

/-- A program that calls operations and finally returns a result. -/
inductive Program {Operation : Type} (Answer : Operation → Type) (Result : Type) : Type
  /-- Return without another call. -/
  | done (result : Result)
  /-- Call one operation and continue with its answer. -/
  | call (operation : Operation) (next : Answer operation → Program Answer Result)

namespace Program

variable {Operation : Type} {Answer : Operation → Type} {First Second World : Type}

/-- Sequential composition of client programs. -/
def andThen : Program Answer First → (First → Program Answer Second) → Program Answer Second
  | .done result, rest => rest result
  | .call operation next, rest => .call operation fun answer => (next answer).andThen rest

instance : Monad (Program Answer) where
  pure := .done
  bind := andThen

/-- The program of one call. -/
def perform (operation : Operation) : Program Answer (Answer operation) :=
  .call operation .done

end Program

/-- A nondeterministic device: which answers and successor worlds a call may have. -/
abbrev Device {Operation : Type} (Answer : Operation → Type) (World : Type) : Type :=
  (operation : Operation) → World → Answer operation → World → Prop

section Execution

variable {Operation : Type} {Answer : Operation → Type} {World First Second : Type}

variable {program : Program Answer First} {after : World} {rest : First → Program Answer Second}

/-- Executions of a program.  The outcome is `none` exactly when the execution was cut. -/
inductive Execution (device : Device Answer World) :
    Program Answer First → World → Option First → World → Prop
  | done (result : First) (world : World) : Execution device (.done result) world (some result) world
  | crash (program : Program Answer First) (world : World) : Execution device program world none world
  | call {operation : Operation} {next : Answer operation → Program Answer First}
      {before during after : World} {answer : Answer operation} {outcome : Option First}
      (transition : device operation before answer during)
      (rest : Execution device (next answer) during outcome after) :
      Execution device (.call operation next) before outcome after

def Ensures (device : Device Answer World) (always : World → Prop) (post : First → World → Prop) :
    Program Answer First → World → Prop
  | .done result, world => always world ∧ post result world
  | .call operation next, world =>
    always world ∧ ∀ answer after, device operation world answer after →
      Ensures device always post (next answer) after

variable {device : Device Answer World} {always always' : World → Prop}
  {post post' : First → World → Prop} {world : World}

section

variable (ensures : Ensures device always post program world)

include ensures

theorem Ensures.now : always world := by
  cases program with
  | done result | call operation next => exact ensures.1

/-- The assertion calculus is sound for crash executions. -/
theorem Ensures.sound {outcome : Option First}
    (execution : Execution device program world outcome after) :
    always after ∧ ∀ result, outcome = some result → post result after := by
  induction execution with
  | done result world => exact ⟨ensures.1, by rintro _ ⟨⟩; exact ensures.2⟩
  | crash program world => exact ⟨ensures.now, by rintro _ ⟨⟩⟩
  | call transition rest induction => exact induction (ensures.2 _ _ transition)

theorem Ensures.mono (always_mono : ∀ world, always world → always' world)
    (post_mono : ∀ result world, always world → post result world → post' result world) :
    Ensures device always' post' program world := by
  induction program generalizing world with
  | done result => exact ⟨always_mono _ ensures.1, post_mono _ _ ensures.1 ensures.2⟩
  | call operation next induction =>
    exact ⟨always_mono _ ensures.1, fun answer after transition =>
      induction answer (ensures.2 answer after transition)⟩

end

/-- Sequencing: the rest must be proved from whatever the first part returns. -/
theorem Ensures.bind {final : Second → World → Prop} (ensures : Ensures device always
      (fun result world => Ensures device always final (rest result) world) program world) :
    Ensures device always final (program >>= rest) world := by
  induction program generalizing world with
  | done result => exact ensures.2
  | call operation next induction =>
    exact ⟨ensures.1, fun answer after transition =>
      induction answer (ensures.2 answer after transition)⟩

/-- Sequencing through an intermediate assertion about what the first part returns. -/
theorem Ensures.seq {middle : First → World → Prop} {final : Second → World → Prop}
    (first : Ensures device always middle program world)
    (second : ∀ result after, always after → middle result after →
      Ensures device always final (rest result) after) :
    Ensures device always final (program >>= rest) world :=
  Ensures.bind (first.mono (fun _ kept => kept) second)

theorem Ensures.pure {result : First} (always_now : always world) (post_now : post result world) :
    Ensures device always post (pure result) world :=
  ⟨always_now, post_now⟩

theorem Ensures.perform {operation : Operation} {post : Answer operation → World → Prop}
    (always_now : always world)
    (step : ∀ answer after, device operation world answer after → always after ∧ post answer after) :
    Ensures device always post (Program.perform operation) world :=
  ⟨always_now, fun answer after transition => step answer after transition⟩

theorem Ensures.perform_bind {operation : Operation} {rest : Answer operation → Program Answer First}
    (always_now : always world) (step : ∀ answer after, device operation world answer after →
      Ensures device always post (rest answer) after) :
    Ensures device always post (Program.perform operation >>= rest) world :=
  ⟨always_now, step⟩

/-- A running assertion that every call keeps holds wherever an execution stops. -/
theorem Ensures.of_invariant (program : Program Answer First)
    (step : ∀ operation before answer after,
      always before → device operation before answer after → always after)
    (start : always world) : Ensures device always (fun _ _ => True) program world := by
  induction program generalizing world with
  | done result => exact ⟨start, trivial⟩
  | call operation next induction =>
    exact ⟨start, fun answer after transition =>
      induction answer (step operation world answer after start transition)⟩

/-- A device that answers every call. -/
def Device.Total (device : Device Answer World) : Prop :=
  ∀ operation before, ∃ answer after, device operation before answer after

theorem Device.Total.completes (total : Device.Total device) (program : Program Answer First)
    (world : World) : ∃ result after, Execution device program world (some result) after := by
  induction program generalizing world with
  | done result => exact ⟨result, world, .done result world⟩
  | call operation next induction =>
    obtain ⟨answer, during, transition⟩ := total operation world
    obtain ⟨result, after, rest⟩ := induction answer during
    exact ⟨result, after, .call transition rest⟩

/-- Every completed execution satisfies `post`, and some execution completes. -/
def Completes (device : Device Answer World) (post : First → World → Prop)
    (program : Program Answer First) (world : World) : Prop :=
  (∃ result after, Execution device program world (some result) after) ∧
    ∀ result after, Execution device program world (some result) after → post result after

theorem Ensures.completes
    (ensures : Ensures device always post program world) (total : Device.Total device) :
    Completes device post program world :=
  ⟨total.completes program world, fun result _ execution =>
    (ensures.sound execution).2 result rfl⟩

theorem Completes.mono (completes : Completes device post program world)
    (post_mono : ∀ result after, post result after → post' result after) :
    Completes device post' program world :=
  ⟨completes.1, fun result after execution =>
    post_mono result after (completes.2 result after execution)⟩

theorem Completes.exists (completes : Completes device post program world) :
    ∃ result after, Execution device program world (some result) after ∧ post result after := by
  obtain ⟨⟨result, after, execution⟩, holds⟩ := completes
  exact ⟨result, after, execution, holds result after execution⟩

theorem Execution.andThen {result : First} {during : World} {outcome : Option Second}
    (first : Execution device program world (some result) during)
    (second : Execution device (rest result) during outcome after) :
    Execution device (program >>= rest) world outcome after := by
  generalize finished : some result = reached at first
  induction first with
  | done value world =>
    cases finished
    exact second
  | crash program world => cases finished
  | call transition _ induction => exact .call transition (induction second finished)

theorem Execution.mono {device' : Device Answer World} {outcome : Option First}
    (weaker : ∀ operation before answer after,
      device operation before answer after → device' operation before answer after)
    (execution : Execution device program world outcome after) :
    Execution device' program world outcome after := by
  induction execution with
  | done result world => exact .done result world
  | crash program world => exact .crash program world
  | call transition _ induction => exact .call (weaker _ _ _ _ transition) induction

/-- Run a program on a device that answers by a function. -/
def Program.run (handler : (operation : Operation) → World → Answer operation × World) :
    Program Answer First → World → First × World
  | .done result, world => (result, world)
  | .call operation next, world =>
    (next (handler operation world).1).run handler (handler operation world).2

section Run

variable {handler : (operation : Operation) → World → Answer operation × World}

@[simp] theorem Program.run_pure (result : First) (world : World) :
    (pure result : Program Answer First).run handler world = (result, world) := rfl

@[simp] theorem Program.run_perform (operation : Operation) (world : World) :
    (Program.perform operation).run handler world = handler operation world := rfl

@[simp] theorem Program.run_bind (program : Program Answer First)
    (rest : First → Program Answer Second) (world : World) :
    (program >>= rest).run handler world =
      (rest (program.run handler world).1).run handler (program.run handler world).2 := by
  induction program generalizing world with
  | done result => rfl
  | call operation next induction =>
    exact induction (handler operation world).1 (handler operation world).2

theorem Program.run_execution (answers : ∀ operation before,
      device operation before (handler operation before).1 (handler operation before).2)
    (program : Program Answer First) (world : World) :
    Execution device program world (some (program.run handler world).1)
      (program.run handler world).2 := by
  induction program generalizing world with
  | done result => exact .done result world
  | call operation next induction => exact .call (answers operation world) (induction _ _)

end Run

end Execution

end R4OS.Crash
