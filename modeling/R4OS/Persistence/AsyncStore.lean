import R4OS.Text.Bytes
import Mathlib.Logic.Function.Basic

/-!
# The asynchronous save store

The producer hands over snapshots of save files and one joinable worker at a time writes them.  A
newer snapshot replaces an older one of its kind that still waits, and the first failure is latched
until the cartridge is acquired again.  The answers of the allocator, the thread calls and the
synchronous store are an argument of every call; the log records what a run did with every job.
-/

namespace R4OS.Persistence

open Text

/-- Faults of a storage backend. -/
inductive BackendError
  | Busy
  | Io
  | Full
  | Unsupported
  deriving DecidableEq

/-- The save files of a cartridge. -/
inductive FileKind
  | sram
  | rtc
  | sram_delta
  deriving DecidableEq

/-- All kinds in the order of their pending slots. -/
def FileKind.all : List FileKind := [.sram, .rtc, .sram_delta]

/-- What a worker leaves in its job. -/
inductive AsyncWriteResult
  | pending
  | ok
  | busy
  | io
  | full
  | unsupported
  deriving DecidableEq

/-- The return codes of the thread calls, as far as the store tells them apart. -/
inductive ThreadCode
  | ok
  | timeout
  | no_memory
  | no_slots
  | unsupported
  | other
  deriving DecidableEq

/-- A snapshot on its way to the worker.  The address of its allocation is never used again. -/
structure AsyncWriteJob where
  address : Nat
  digest : Bytes
  kind : FileKind
  bytes : Bytes
  sequence : UInt64
  deriving DecidableEq

/-- The lock file of the synchronous store. -/
structure StoreLock where
  lock_digest : Bytes
  lock_generation : UInt64

/-- The asynchronous store.  The counter of allocations stands for the allocator. -/
structure AsyncStore where
  lock_writer : Option StoreLock := none
  active : Option AsyncWriteJob := none
  pending : FileKind → Option AsyncWriteJob := fun _ => none
  next_sequence : UInt64 := 1
  latched_failure : Option BackendError := none
  allocations : Nat := 0

/-- Calls of the producer. -/
inductive Call
  | acquire (digest : Bytes) (generation : UInt64)
  | writeAtomic (digest : Bytes) (kind : FileKind) (bytes : Bytes)
  | poll
  | drain
  | release (digest : Bytes) (generation : UInt64)
  deriving DecidableEq

/-- The fault of a call, none when it succeeds. -/
abbrev Outcome := Option BackendError

/-- What happened to jobs and calls. -/
inductive Event
  | created (job : AsyncWriteJob)
  | accepted (job : AsyncWriteJob)
  | started (job : AsyncWriteJob)
  | joined (job : AsyncWriteJob) (result : AsyncWriteResult)
  | replaced (older newer : AsyncWriteJob)
  | destroyed (job : AsyncWriteJob)
  | latched (fault : BackendError)
  | acquired
  | returned (call : Call) (outcome : Outcome)
  deriving DecidableEq

/-- What the environment answers at one moment. -/
structure Answer where
  allocated : Bool := true
  thread_create : ThreadCode := .ok
  thread_join : ThreadCode := .ok
  exit_code : Int := 0
  result : AsyncWriteResult := .ok
  has_threads : Bool := true
  acquired : Outcome := none
  aborted : Bool := true

/-- The answers of a whole run, in the order of the questions. -/
abbrev Environment := Nat → Answer

/-- A store, the answers used so far and the log. -/
structure World where
  store : AsyncStore := {}
  clock : Nat := 0
  log : List Event := []

/-- Use up the current answer. -/
def World.tick (world : World) : World := { world with clock := world.clock + 1 }

/-- Append to the log. -/
def World.record (world : World) (events : List Event) : World :=
  { world with log := world.log ++ events }

/-- The jobs that wait, in the order of their slots. -/
def AsyncStore.pendingJobs (store : AsyncStore) : List AsyncWriteJob :=
  FileKind.all.filterMap store.pending

/-- Number of jobs that wait. -/
def AsyncStore.pendingCount (store : AsyncStore) : Nat := store.pendingJobs.length

/-- Whether the store has nothing to write. -/
def AsyncStore.idle (store : AsyncStore) : Bool :=
  store.active.isNone && store.pendingCount == 0

/-- Map a failed thread creation. -/
def mapThreadFault : ThreadCode → BackendError
  | .no_memory | .no_slots => .Full
  | .unsupported => .Unsupported
  | _ => .Io

/-- The fault of a finished job. -/
def asyncResultFault : AsyncWriteResult → Outcome
  | .pending | .io => some .Io
  | .busy => some .Busy
  | .full => some .Full
  | .unsupported => some .Unsupported
  | .ok => none

/-- Free a job. -/
def destroyJob (job : AsyncWriteJob) (world : World) : World := world.record [.destroyed job]

/-- Free all jobs that wait. -/
def clearPending (world : World) : World :=
  { world with
    store := { world.store with pending := fun _ => none }
    log := world.log ++ world.store.pendingJobs.map Event.destroyed }

/-- The slot of the oldest job that waits. -/
def oldestPending (pending : FileKind → Option AsyncWriteJob) : Option FileKind :=
  FileKind.all.foldl
    (fun selected index =>
      match pending index with
      | none => selected
      | some candidate =>
        match selected.bind pending with
        | none => some index
        | some oldest => if candidate.sequence < oldest.sequence then some index else selected)
    none

def takeOldestPending (world : World) : Option (AsyncWriteJob × World) :=
  match oldestPending world.store.pending with
  | none => none
  | some index =>
    (world.store.pending index).map fun job =>
      (job, { world with
        store := { world.store with
          pending := Function.update world.store.pending index none } })

/-- Allocate a job with a copy of the snapshot. -/
def createJob (environment : Environment) (digest : Bytes) (kind : FileKind) (bytes : Bytes)
    (world : World) : Option AsyncWriteJob × World :=
  if (environment world.clock).allocated then
    let job : AsyncWriteJob :=
      { address := world.store.allocations, digest, kind, bytes,
        sequence := world.store.next_sequence }
    let next := world.store.next_sequence + 1
    let store := { world.store with
      allocations := world.store.allocations + 1
      next_sequence := if next = 0 then 1 else next }
    (some job, { world.tick with store, log := world.log ++ [.created job] })
  else (none, world.tick)

/-- Create the worker of a job. -/
def startJob (environment : Environment) (job : AsyncWriteJob) (world : World) : Outcome × World :=
  let code := (environment world.clock).thread_create
  if code = .ok then
    (none, { world.tick with
      store := { world.store with active := some job }
      log := world.log ++ [.started job] })
  else (some (mapThreadFault code), world.tick)

/-- Latch a failure and give up all jobs that wait. -/
def latchFailure (fault : BackendError) (world : World) : World :=
  clearPending { world with
    store := { world.store with latched_failure := some fault }
    log := world.log ++ [.latched fault] }

/-- Start the oldest job that waits. -/
def startOldest (environment : Environment) (world : World) : Outcome × World :=
  match takeOldestPending world with
  | none => (none, world)
  | some (job, taken) =>
    match startJob environment job taken with
    | (none, started) => (none, started)
    | (some fault, refused) => (some fault, latchFailure fault (destroyJob job refused))

/-- Take the result of a finished worker and destroy its job. -/
def finishJob (job : AsyncWriteJob) (result : AsyncWriteResult) (world : World) : World :=
  destroyJob job { world with
    store := { world.store with active := none }
    log := world.log ++ [.joined job result] }

/-- The result of a worker that is no longer waited for. -/
def joinResult (answer : Answer) : AsyncWriteResult :=
  if answer.thread_join = .ok ∧ answer.exit_code = 0 then answer.result else .io

/-- Join the worker when it has finished and start the next job. -/
def pollOne (environment : Environment) (world : World) : Outcome × World :=
  match world.store.latched_failure with
  | some fault => (some fault, world)
  | none =>
    match world.store.active with
    | none => startOldest environment world
    | some job =>
      let answer := environment world.clock
      if answer.thread_join = .timeout then (none, world.tick)
      else
        let finished := finishJob job (joinResult answer) world.tick
        match asyncResultFault (joinResult answer) with
        | some fault => (some fault, latchFailure fault finished)
        | none => startOldest environment finished

/-- Take the cartridge and forget the last failure. -/
def acquire (environment : Environment) (digest : Bytes) (generation : UInt64) (world : World) :
    Outcome × World :=
  if !world.store.idle then (some .Busy, world)
  else if !(environment world.clock).has_threads then (some .Unsupported, world.tick)
  else
    let opened := { world.tick with
      store := { world.store with latched_failure := none }
      log := world.log ++ [.acquired] }
    if world.store.lock_writer.isSome then (some .Busy, opened)
    else
      match (environment world.clock).acquired with
      | some fault => (some fault, opened)
      | none =>
        (none, { opened with
          store := { opened.store with lock_writer := some ⟨digest, generation⟩ } })

/-- Accept a snapshot: hand it over at once or let it wait. -/
def writeAtomic (environment : Environment) (digest : Bytes) (kind : FileKind) (bytes : Bytes)
    (world : World) : Outcome × World :=
  match pollOne environment world with
  | (some fault, polled) => (some fault, polled)
  | (none, polled) =>
    match polled.store.latched_failure with
    | some fault => (some fault, polled)
    | none =>
      if polled.store.lock_writer.map StoreLock.lock_digest ≠ some digest then
        (some .Busy, polled)
      else
        match createJob environment digest kind bytes polled with
        | (none, refused) => (some .Full, refused)
        | (some job, created) =>
          if created.store.active.isNone then
            match startJob environment job created with
            | (none, started) => (none, started.record [.accepted job])
            | (some fault, refused) => (some fault, destroyJob job refused)
          else
            let coalesced := match created.store.pending kind with
              | some older => destroyJob older (created.record [.replaced older job])
              | none => created
            (none, { coalesced with
              store := { coalesced.store with
                pending := Function.update coalesced.store.pending kind (some job) }
              log := coalesced.log ++ [.accepted job] })

/-- Poll the worker. -/
def poll (environment : Environment) (world : World) : Outcome × World := pollOne environment world

/-- Wait for all accepted snapshots, for as many rounds as the fuel allows. -/
def drain (environment : Environment) : Nat → World → Option (Outcome × World)
  | 0, _ => none
  | fuel + 1, world =>
    if world.store.idle then some (world.store.latched_failure, world)
    else
      let (outcome, opened) :=
        if world.store.active.isNone then startOldest environment world else (none, world)
      match outcome with
      | some fault => some (some fault, opened)
      | none =>
        match pollOne environment opened with
        | (some fault, polled) => some (some fault, polled)
        | (none, polled) => drain environment fuel polled

/-- Remove the lock file of the cartridge. -/
def releaseLock (environment : Environment) (digest : Bytes) (generation : UInt64)
    (world : World) : Outcome × World :=
  match world.store.lock_writer with
  | none => (none, world)
  | some lock =>
    if lock.lock_generation ≠ generation ∨ lock.lock_digest ≠ digest then (some .Io, world)
    else if !(environment world.clock).aborted then (some .Io, world.tick)
    else (none, { world.tick with store := { world.store with lock_writer := none } })

/-- Write everything that was accepted and give the cartridge back. -/
def release (environment : Environment) (fuel : Nat) (digest : Bytes) (generation : UInt64)
    (world : World) : Option (Outcome × World) :=
  (drain environment fuel world).map fun (write_fault, drained) =>
    let (release_fault, released) := releaseLock environment digest generation drained
    let cleared := clearPending released
    (write_fault <|> cleared.store.latched_failure <|> release_fault, cleared)

/-- One call of the producer. -/
def Call.run (environment : Environment) (fuel : Nat) (world : World) :
    Call → Option (Outcome × World)
  | .acquire digest generation => some (Persistence.acquire environment digest generation world)
  | .writeAtomic digest kind bytes =>
    some (Persistence.writeAtomic environment digest kind bytes world)
  | .poll => some (Persistence.poll environment world)
  | .drain => Persistence.drain environment fuel world
  | .release digest generation => Persistence.release environment fuel digest generation world

/-- One call with its outcome in the log. -/
def Call.perform (environment : Environment) (fuel : Nat) (world : World) (call : Call) :
    Option World :=
  (call.run environment fuel world).map fun (outcome, after) =>
    after.record [.returned call outcome]

end R4OS.Persistence
