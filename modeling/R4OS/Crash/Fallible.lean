import R4OS.Crash.Program

/-!
# Fallible programs

Programs whose calls answer a value or an error, and which stop at the first error.  Partial
correctness for them: one assertion wherever an execution stops, and another one when it returns a
value.
-/

namespace R4OS.Crash

section Fallible

variable {Operation Error World First Second : Type} {Value : Operation → Type}

/-- The answers of calls that may fail. -/
abbrev Reply (Error : Type) (Value : Operation → Type) (operation : Operation) : Type :=
  Except Error (Value operation)

/-- A program over calls that may fail. -/
abbrev Fallible (Error : Type) (Value : Operation → Type) (Result : Type) : Type :=
  ExceptT Error (Program (Reply Error Value)) Result

namespace Fallible

/-- One call, whose error stops the program. -/
def call (operation : Operation) : Fallible Error Value (Value operation) :=
  ExceptT.mk (Program.perform operation)

/-- One call, whose error is ignored. -/
def attempt (operation : Operation) : Fallible Error Value Unit :=
  ExceptT.mk (Program.perform operation >>= fun _ => pure (.ok ()))

end Fallible

def computed (result : Except Error First) : Fallible Error Value First :=
  ExceptT.mk (pure result)

/-- Stop with an error unless a condition holds. -/
def require (condition : Bool) (error : Error) : Fallible Error Value Unit :=
  if condition then pure () else throw error

def Keeps (device : Device (Reply Error Value) World) (always : World → Prop)
    (post : First → World → Prop) (program : Fallible Error Value First) (world : World) : Prop :=
  Ensures device always (fun reply after => ∀ result, reply = .ok result → post result after)
    program.run world

variable {device : Device (Reply Error Value) World} {always : World → Prop}
  {post post' : First → World → Prop} {world : World}

variable {program : Fallible Error Value First}

theorem Keeps.sound {outcome : Option (Except Error First)} {after : World}
    (keeps : Keeps device always post program world)
    (execution : Execution device program.run world outcome after) :
    always after ∧ ∀ result, outcome = some (.ok result) → post result after := by
  obtain ⟨kept, returned⟩ := Ensures.sound keeps execution
  exact ⟨kept, fun result finished => returned _ finished result rfl⟩

theorem Keeps.mono (keeps : Keeps device always post program world)
    (post_mono : ∀ result after, always after → post result after → post' result after) :
    Keeps device always post' program world := by
  apply Ensures.mono keeps (fun _ kept => kept)
  intro reply after kept returned result finished
  exact post_mono result after kept (returned result finished)

theorem Keeps.pure {result : First} (always_now : always world) (post_now : post result world) :
    Keeps device always post (pure result) world := by
  apply Ensures.pure always_now
  rintro _ ⟨⟩
  exact post_now

theorem Keeps.throw {error : Error} (always_now : always world) :
    Keeps device always post (throw error) world := by
  apply Ensures.pure always_now
  rintro _ ⟨⟩

/-- Sequencing through an assertion about what the first part returns. -/
theorem Keeps.bind {rest : First → Fallible Error Value Second} {final : Second → World → Prop}
    (first : Keeps device always post program world)
    (second : ∀ result after, always after → post result after → Keeps device always final (rest result) after) :
    Keeps device always final (program >>= rest) world := by
  apply Ensures.seq first
  intro reply after kept returned
  cases reply with
  | error error =>
    apply Ensures.pure kept
    rintro _ ⟨⟩
  | ok result => exact second result after kept (returned result rfl)

theorem Keeps.bind_same {fact : First → Prop} {rest : First → Fallible Error Value Second}
    {final : Second → World → Prop}
    (first : Keeps device always (fun result after => after = world ∧ fact result) program world)
    (second : ∀ result, fact result → Keeps device always final (rest result) world) :
    Keeps device always final (program >>= rest) world := by
  apply Keeps.bind first
  rintro result after _ ⟨rfl, holds⟩
  exact second result holds

variable (always_now : always world)

include always_now

theorem Keeps.computed_bind {reply : Except Error First}
    {rest : First → Fallible Error Value Second} {final : Second → World → Prop}
    (second : ∀ result, reply = .ok result → Keeps device always final (rest result) world) :
    Keeps device always final (computed reply >>= rest) world := by
  have unchanged : Keeps device always (fun result after => after = world ∧ reply = .ok result)
      (computed reply) world := Ensures.pure always_now fun _ finished => ⟨rfl, finished⟩
  exact .bind_same unchanged second

theorem Keeps.require {condition : Bool} {error : Error} {post : Unit → World → Prop} (post_now : condition = true → post () world) :
    Keeps device always post (require condition error) world := by
  unfold Crash.require
  split
  · exact .pure always_now (post_now ‹_›)
  · exact .throw always_now

theorem Keeps.require_bind {condition : Bool} {error : Error}
    {rest : Unit → Fallible Error Value Second} {final : Second → World → Prop}
    (second : condition = true → Keeps device always final (rest ()) world) :
    Keeps device always final (Crash.require condition error >>= rest) world := by
  have unchanged : Keeps device always (fun _ after => after = world ∧ condition = true)
      (Crash.require condition error) world :=
    Keeps.require always_now fun holds => ⟨rfl, holds⟩
  exact .bind_same unchanged fun _ => second

theorem Keeps.call {operation : Operation} {post : Value operation → World → Prop}
    (step : ∀ reply after, device operation world reply after →
      always after ∧ ∀ value, reply = .ok value → post value after) :
    Keeps device always post (Fallible.call operation) world :=
  Ensures.perform always_now step

theorem Keeps.attempt {operation : Operation} {post : Unit → World → Prop}
    (step : ∀ reply after, device operation world reply after → always after ∧ post () after) :
    Keeps device always post (Fallible.attempt operation) world := by
  apply Ensures.perform_bind always_now
  intro reply after transition
  obtain ⟨kept, reached⟩ := step reply after transition
  exact Ensures.pure kept fun _ _ => reached

end Fallible

end R4OS.Crash
