import Mathlib.Data.List.Basic
import Mathlib.Data.UInt

/-!
# The resource scheduler of a document

Scripts, style sheets and other resources of one document share one table in the order of their
discovery.  Fetching moves an entry forward until it is ready; dispatch picks the next entry that
may run under the rules of its kind.
-/

namespace R4OS.Resources

/-- Entries of a table. -/
def max_resources : Nat := 64

/-- The request id of an entry without a request. -/
def no_request : UInt32 := 0

/-- Errors of the scheduler. -/
inductive ResourceError
  | ResourceLimit
  | InvalidResource
  | InvalidTransition
  | StaleGeneration

/-- Kinds of resources. -/
inductive Kind
  | script
  | stylesheet
  | image
  | subdocument
  | font
  deriving DecidableEq

/-- How a script is scheduled. -/
inductive ScriptMode
  | none
  | parser_blocking
  | defer_mode
  | async_mode
  | dynamic
  deriving DecidableEq

/-- Where an entry stands. -/
inductive State
  | discovered
  | queued
  | fetching
  | ready
  | running
  | complete
  | failed
  | aborted
  deriving DecidableEq

/-- The states that an entry never leaves. -/
def State.terminal (state : State) : Bool :=
  state == .complete || state == .failed || state == .aborted

/-- One resource. -/
structure Entry where
  id : UInt32
  generation : UInt32
  sequence : Nat
  node : UInt16
  kind : Kind
  script_mode : ScriptMode
  request_required : Bool
  state : State := .discovered
  request_id : UInt32 := no_request

/-- The table of a document. -/
structure Scheduler where
  generation : UInt32
  entries : List Entry := []
  next_id : UInt32 := 1
  parsing_complete : Bool := false
  ready_cursor : Nat := 0

/-- What an operation answers. -/
inductive Answer
  | done
  | index (index : Nat)
  | nothing
  | error (error : ResourceError)

namespace Scheduler

/-- The scheduler of a new document. -/
def init (generation : UInt32) : Scheduler := { generation := generation }

/-- Used entries of the table. -/
def count (scheduler : Scheduler) : Nat := scheduler.entries.length

/-- Move one entry to a state. -/
def setState (scheduler : Scheduler) (index : Nat) (state : State) : Scheduler :=
  { scheduler with
    entries := scheduler.entries.modify index fun entry => { entry with state := state } }

/-- The id after an id, which is never zero. -/
def idAfter (id : UInt32) : UInt32 := if id + 1 = 0 then 1 else id + 1

/-- Enter a resource into the table. -/
def discover (scheduler : Scheduler) (node : UInt16) (kind : Kind) (script_mode : ScriptMode)
    (request_required : Bool) : Answer × Scheduler :=
  if max_resources ≤ scheduler.count then (.error .ResourceLimit, scheduler)
  else if kind == .script && script_mode == .none then (.error .InvalidResource, scheduler)
  else if kind != .script && script_mode != .none then (.error .InvalidResource, scheduler)
  else
    (.index scheduler.count,
      { scheduler with
        entries := scheduler.entries ++ [{
          id := scheduler.next_id
          generation := scheduler.generation
          sequence := scheduler.count
          node := node
          kind := kind
          script_mode := script_mode
          request_required := request_required }]
        next_id := idAfter scheduler.next_id })

/-- The entry of an index in the current generation. -/
def active (scheduler : Scheduler) (index : Nat) : Except ResourceError Entry :=
  match scheduler.entries[index]? with
  | none => .error .InvalidResource
  | some entry =>
    if entry.generation != scheduler.generation then .error .StaleGeneration else .ok entry

def requestIndex (scheduler : Scheduler) (request_id generation : UInt32) :
    Except ResourceError (Nat × Entry) :=
  if generation != scheduler.generation then .error .StaleGeneration
  else match scheduler.entries.zipIdx.find? fun slot =>
      slot.1.request_id == request_id && slot.1.generation == generation with
    | none => .error .InvalidResource
    | some slot => .ok (slot.2, slot.1)

/-- Give an entry its request. -/
def queue (scheduler : Scheduler) (index : Nat) (request_id : UInt32) : Answer × Scheduler :=
  match scheduler.active index with
  | .error error => (.error error, scheduler)
  | .ok entry =>
    if entry.state != .discovered || request_id == no_request then
      (.error .InvalidTransition, scheduler)
    else
      (.done,
        { scheduler with
          entries := scheduler.entries.modify index fun entry =>
            { entry with request_id := request_id, state := .queued } })

def moveRequest (scheduler : Scheduler) (request_id generation : UInt32) (start : State → Bool)
    (target : State) : Answer × Scheduler :=
  match scheduler.requestIndex request_id generation with
  | .error error => (.error error, scheduler)
  | .ok (index, entry) =>
    if !start entry.state then (.error .InvalidTransition, scheduler)
    else (.index index, scheduler.setState index target)

def beginFetch (scheduler : Scheduler) (request_id generation : UInt32) : Answer × Scheduler :=
  scheduler.moveRequest request_id generation (· == .queued) .fetching

/-- The fetch of a request has delivered its content. -/
def completeFetch (scheduler : Scheduler) (request_id generation : UInt32) : Answer × Scheduler :=
  scheduler.moveRequest request_id generation (· == .fetching) .ready

def failFetch (scheduler : Scheduler) (request_id generation : UInt32) : Answer × Scheduler :=
  scheduler.moveRequest request_id generation (fun state => state == .queued || state == .fetching)
    .failed

def moveActive (scheduler : Scheduler) (index : Nat) (start : Entry → Bool) (target : State) :
    Answer × Scheduler :=
  match scheduler.active index with
  | .error error => (.error error, scheduler)
  | .ok entry =>
    if !start entry then (.error .InvalidTransition, scheduler)
    else (.done, scheduler.setState index target)

/-- An entry without a request has its content. -/
def markReady (scheduler : Scheduler) (index : Nat) : Answer × Scheduler :=
  scheduler.moveActive index (fun entry =>
    !(entry.request_required || entry.request_id != no_request || entry.state != .discovered))
    .ready

/-- Give an entry up before it runs. -/
def reject (scheduler : Scheduler) (index : Nat) : Answer × Scheduler :=
  scheduler.moveActive index (fun entry => !(entry.state.terminal || entry.state == .running))
    .failed

/-- The document is parsed. -/
def finishParsing (scheduler : Scheduler) : Scheduler := { scheduler with parsing_complete := true }

/-- An entry has run. -/
def finish (scheduler : Scheduler) (index : Nat) (success : Bool) : Answer × Scheduler :=
  scheduler.moveActive index (fun entry => entry.state == .running)
    (if success then .complete else .failed)

/-- Stop what a generation has not finished. -/
def abort (scheduler : Scheduler) (generation : UInt32) : Scheduler :=
  { scheduler with
    entries := scheduler.entries.map fun entry =>
      if entry.generation == generation && !entry.state.terminal then
        { entry with state := .aborted }
      else entry }

end Scheduler

def Entry.isScript (entry : Entry) (mode : ScriptMode) : Bool :=
  entry.kind == .script && entry.script_mode == mode

namespace Scheduler

def takeReadyMode (scheduler : Scheduler) (mode : ScriptMode) : Option Nat :=
  scheduler.entries.findIdx? fun entry => entry.isScript mode && entry.state == .ready

def firstPending (scheduler : Scheduler) (mode : ScriptMode) : Option (Entry × Nat) :=
  scheduler.entries.zipIdx.find? fun slot => slot.1.isScript mode && !slot.1.state.terminal

def takePending (scheduler : Scheduler) (mode : ScriptMode) : Option Nat :=
  match scheduler.firstPending mode with
  | none => none
  | some (entry, index) => if entry.state == .ready then some index else none

/-- The deferred script that may run. -/
def takeDeferred (scheduler : Scheduler) : Option Nat :=
  if scheduler.parsing_complete && (scheduler.firstPending .parser_blocking).isNone then
    scheduler.takePending .defer_mode
  else none

/-- Whether a style sheet before an index is not terminal. -/
def blockedStylesheet (scheduler : Scheduler) (index : Nat) : Bool :=
  (scheduler.entries.take index).any fun earlier =>
    earlier.kind == .stylesheet && !earlier.state.terminal

/-- Whether a resource other than a script may run. -/
def resourceRunnable (scheduler : Scheduler) (index : Nat) : Bool :=
  match scheduler.entries[index]? with
  | none => false
  | some entry =>
    entry.kind != .script && entry.state == .ready &&
      !(entry.kind == .stylesheet && scheduler.blockedStylesheet index)

/-- The next resource other than a script, from the cursor on. -/
def takeReadyResource (scheduler : Scheduler) : Option Nat :=
  ((List.range scheduler.count).map fun checked =>
    (scheduler.ready_cursor + checked) % scheduler.count).find? scheduler.resourceRunnable

/-- Start an entry. -/
def start (scheduler : Scheduler) (index : Nat) : Option Nat × Scheduler :=
  (some index, scheduler.setState index .running)

/-- Hand out the next entry that may run. -/
def takeRunnable (scheduler : Scheduler) : Option Nat × Scheduler :=
  match scheduler.takeReadyMode .async_mode with
  | some index => scheduler.start index
  | none =>
    match scheduler.takeReadyMode .dynamic with
    | some index => scheduler.start index
    | none =>
      match scheduler.takePending .parser_blocking with
      | some index => scheduler.start index
      | none =>
        match scheduler.takeDeferred with
        | some index => scheduler.start index
        | none =>
          match scheduler.takeReadyResource with
          | some index =>
            (some index,
              { scheduler.setState index .running with
                ready_cursor := (index + 1) % scheduler.count })
          | none => (none, scheduler)

end Scheduler

/-- The operations of a document. -/
inductive Operation
  | discover (node : UInt16) (kind : Kind) (script_mode : ScriptMode) (request_required : Bool)
  | queue (index : Nat) (request_id : UInt32)
  | beginFetch (request_id generation : UInt32)
  | completeFetch (request_id generation : UInt32)
  | failFetch (request_id generation : UInt32)
  | markReady (index : Nat)
  | reject (index : Nat)
  | finishParsing
  | takeRunnable
  | finish (index : Nat) (success : Bool)
  | abort (generation : UInt32)

/-- The answer of a dispatch. -/
def Answer.handed : Option Nat → Answer
  | some handed => .index handed
  | none => .nothing

def Scheduler.perform (scheduler : Scheduler) : Operation → Answer × Scheduler
  | .discover node kind script_mode request_required =>
    scheduler.discover node kind script_mode request_required
  | .queue index request_id => scheduler.queue index request_id
  | .beginFetch request_id generation => scheduler.beginFetch request_id generation
  | .completeFetch request_id generation => scheduler.completeFetch request_id generation
  | .failFetch request_id generation => scheduler.failFetch request_id generation
  | .markReady index => scheduler.markReady index
  | .reject index => scheduler.reject index
  | .finishParsing => (.done, scheduler.finishParsing)
  | .takeRunnable => (.handed scheduler.takeRunnable.1, scheduler.takeRunnable.2)
  | .finish index success => scheduler.finish index success
  | .abort generation => (.done, scheduler.abort generation)

/-- One step of a run. -/
structure Step where
  before : Scheduler
  operation : Operation
  answer : Answer
  after : Scheduler

/-- The steps of a sequence of operations. -/
def Scheduler.run (scheduler : Scheduler) : List Operation → List Step
  | [] => []
  | operation :: rest =>
    { before := scheduler
      operation := operation
      answer := (scheduler.perform operation).1
      after := (scheduler.perform operation).2 } :: (scheduler.perform operation).2.run rest

end R4OS.Resources
