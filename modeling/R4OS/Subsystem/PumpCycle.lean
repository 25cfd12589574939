import R4OS.Subsystem.Pump

/-!
# The audio pump in a cycle

In a cycle of its runtime a pump drops PCM that is too late, takes new PCM from the guest and starts
one operation of its sink.
-/

namespace R4OS.Subsystem

open Buffer Text

inductive StepStatus
  | progress
  | waiting
  | completed
  | failed
  deriving DecidableEq

/-- What a slice of a guest ends with. -/
structure StepResult where
  status : StepStatus := .progress
  frame_ready : Bool := false
  wake_guest_ns : Nat := 0
  exit_code : Int := 0
  operations : Nat := 0

/-- A guest.  What it renders is given by place. -/
structure GuestDriver (World : Type) where
  step_fn : World → Nat → Nat → StepResult × World
  reset_fn : World → Int × World
  render_audio_fn : World → Bytes → Int × (Nat → UInt8) × World
  audio_feedback_fn : Option (World → AudioFeedback → Bool × World) := none

namespace Playing

variable {World : Type}

/-- Let the guest write over the first bytes of the scratch. -/
def renderAudio (playing : Playing World) (guest : GuestDriver World) (wanted : Nat) :
    Int × Playing World :=
  let (rendered, bytes, world) :=
    guest.render_audio_fn playing.world (playing.pump.scratch.take wanted)
  (rendered, { playing with
    pump.scratch := (List.range wanted).map bytes ++ playing.pump.scratch.drop wanted
    world })

/-- Queue the first bytes of the scratch; the number of bytes that went in. -/
def queueRendered (playing : Playing World) (count : Nat) : Nat × Playing World :=
  let data := playing.pump.scratch.take count
  let (written, queue) := playing.pump.queue.write data
  let pump := { playing.pump with
    queue, stats.generated_bytes := playing.pump.stats.generated_bytes + UInt64.ofNat count }
  (written, { playing with pump }.record (.produced data))

theorem queueRendered_available (playing : Playing World) (count : Nat) :
    (playing.queueRendered count).2.pump.queue.available =
      playing.pump.queue.available + (playing.queueRendered count).1 :=
  PcmQueue.write_len _ _

/-- One turn of the loop that fills the queue: its end with an answer, or one more turn. -/
def fillStep (guest : GuestDriver World) (target frame_bytes : Nat) (playing : Playing World) :
    Option Int × Playing World :=
  if playing.pump.queue.available < target then
    let wanted_raw := min playing.pump.scratch.length
      (min (target - playing.pump.queue.available) playing.pump.queue.free)
    let wanted := wholeFrames wanted_raw frame_bytes
    if wanted = 0 then (some 0, playing)
    else
      let (rendered, painted) := playing.renderAudio guest wanted
      if rendered < 0 then (some rendered, painted)
      else if rendered.toNat = 0 then (some 0, painted)
      else if wanted < rendered.toNat ∨ rendered.toNat % frame_bytes ≠ 0 then
        (some runtime_error_guest_audio, painted)
      else
        let (written, queued) := painted.queueRendered rendered.toNat
        if written ≠ rendered.toNat then (some runtime_error_guest_audio, queued)
        else (none, queued)
  else (some 0, playing)

theorem fillStep_more {guest : GuestDriver World} {target frame_bytes : Nat}
    {playing after : Playing World}
    (more : playing.fillStep guest target frame_bytes = (none, after)) :
    playing.pump.queue.available < target ∧
      playing.pump.queue.available < after.pump.queue.available := by
  unfold fillStep at more
  dsimp only at more
  split at more
  · next below =>
    refine ⟨below, ?_⟩
    split at more
    · cases more
    split at more
    · cases more
    split at more
    · cases more
    · next some_bytes =>
      split at more
      · cases more
      split at more
      · cases more
      · next written =>
        obtain ⟨-, rfl⟩ := Prod.mk.inj more
        rw [queueRendered_available, not_not.mp written]
        exact Nat.lt_add_of_pos_right (Nat.pos_of_ne_zero some_bytes)
  · cases more

/-- Let the guest render until the queue holds its target. -/
def fillLoop (guest : GuestDriver World) (target frame_bytes : Nat) (playing : Playing World) :
    Int × Playing World :=
  match _step : playing.fillStep guest target frame_bytes with
  | (some answer, playing) => (answer, playing)
  | (none, after) => fillLoop guest target frame_bytes after
termination_by target - playing.pump.queue.available
decreasing_by
  have grows := fillStep_more _step
  omega

/-- Take new PCM from the guest, when it had a slice or the next quantum is due. -/
def fill (guest : GuestDriver World) (now : Nat) (guest_stepped : Bool) (playing : Playing World) :
    Int × Playing World :=
  let pump := playing.pump
  if pump.pending_operation ≠ none ∨ pump.close_pending then (0, playing)
  else if (pump.state ≠ .ready ∧ pump.state ≠ .active) ∨ pump.muted then (0, playing)
  else if guest_stepped = false ∧ (pump.next_deadline_tick = 0 ∨ now < pump.next_deadline_tick) then
    (0, playing)
  else match pump.config.targetBytes, pump.config.frameBytes with
    | .ok target, .ok frame_bytes => playing.fillLoop guest target frame_bytes
    | _, _ => (runtime_error_guest_audio, playing)

/-- Drop what waits and start over now. -/
def dropLate (playing : Playing World) (now : Nat) : Playing World :=
  let discarded := playing.pump.queue.available
  { playing with pump := { playing.pump with
      queue := playing.pump.queue.clear
      stats.discarded_bytes := playing.pump.stats.discarded_bytes + UInt64.ofNat discarded
      next_deadline_tick := now
      resync_prefill_quanta := playing.pump.config.target_quanta } }.record (.discarded discarded)

/-- Drop what waits when it missed the time in which it could catch up. -/
def resyncLate (playing : Playing World) (now : Nat) : Playing World :=
  let pump := playing.pump
  if pump.pending_operation ≠ none then playing
  else if (pump.state ≠ .ready ∧ pump.state ≠ .active) ∨ pump.next_deadline_tick = 0 ∨
      now < pump.next_deadline_tick then playing
  else
    let catchup_ticks := min (pump.config.max_catchup_quanta * pump.quantum_ticks) maxWord
    if now - pump.next_deadline_tick < catchup_ticks then playing else playing.dropLate now

section Sinks

variable [AudioAbi] (sink : Option (AudioSink World))

/-- Try again to close the sink. -/
def retryClose (playing : Playing World) (now : Nat) (clock : Option (World → Nat × World)) :
    Playing World :=
  if now < playing.pump.close_retry_tick then playing
  else
    let playing := playing.closeSink sink
    if playing.pump.close_pending ∧ playing.pump.pending_operation = none then
      let (tick, world) := currentHostTick clock playing.world now
      { playing with
        pump.close_retry_tick := addSaturating tick playing.pump.busy_retry_ticks
        world }
    else playing

/-- Ask the sink for its progress. -/
def queryProgress (query : World → Int × World) (playing : Playing World) (now : Nat)
    (clock : Option (World → Nat × World)) : Playing World :=
  let pump := playing.pump.noteServiceOperation
  let (rc, world) := query playing.world
  let (tick, world) := currentHostTick clock world now
  let pump := { pump with
    progress_due_tick := addSaturating tick (max (pump.quantum_ticks / 2) 1) }
  if rc = transport_pending then { playing with pump := pump.beginPending .progress 0, world }
  else if rc < 0 ∧ rc ≠ AudioAbi.service_api_result_busy then { playing with pump, world }.degrade rc
  else { playing with pump, world }

/-- Let the first bytes pass in silence. -/
def suppressSilence (playing : Playing World) (copied now : Nat) : Playing World :=
  let pump := { playing.pump with queue := (playing.pump.queue.discard copied).2 }
  let frame_ticks := copied / pump.queue.frame_bytes * pump.monotonic_hz
  let duration := (frame_ticks + pump.config.sample_rate - 1) / pump.config.sample_rate
  let pump := { pump with
    stats.suppressed_bytes := pump.stats.suppressed_bytes + UInt64.ofNat copied
    next_deadline_tick := addSaturating now (max 1 duration)
    resync_prefill_quanta := 0
    open_retry_attempts := 0
    state := if pump.state ≠ .degraded then .ready else pump.state }
  { playing with pump }.record (.suppressed copied)

def writeQuantum (playing : Playing World) (copied now : Nat)
    (clock : Option (World → Nat × World)) : Playing World :=
  let prefill := playing.pump.resync_prefill_quanta
  let (result, playing) := playing.submitQuantum sink copied
  match result with
  | .submitted =>
    if prefill ≠ 0 then
      let (tick, world) := currentHostTick clock playing.world now
      let left := playing.pump.resync_prefill_quanta - 1
      { playing with
        pump := { playing.pump with
          resync_prefill_quanta := left
          next_deadline_tick :=
            if left = 0 then addSaturating tick playing.pump.quantum_ticks else tick }
        world }
    else
      { playing with pump.next_deadline_tick :=
          addSaturating playing.pump.next_deadline_tick playing.pump.quantum_ticks }
  | .busy =>
    let (tick, world) := currentHostTick clock playing.world now
    { playing with
      pump.next_deadline_tick := addSaturating tick playing.pump.busy_retry_ticks
      world }
  | .pending => playing
  | .failed => playing

/-- The quantum that is due. -/
def playDue (playing : Playing World) (now : Nat) (clock : Option (World → Nat × World)) :
    Playing World :=
  if now < playing.pump.next_deadline_tick then playing
  else
    let payload := playing.pump.queue.peek playing.pump.scratch.length
    let copied := payload.length
    let playing := { playing with
      pump.scratch := payload ++ playing.pump.scratch.drop copied }
    if copied = 0 then
      if playing.pump.state = .active then
        let (tick, world) := currentHostTick clock playing.world now
        { playing with
          pump.next_deadline_tick := addSaturating tick playing.pump.quantum_ticks
          world }
      else { playing with pump.next_deadline_tick := 0 }
    else if ¬ playing.pump.config.continuous ∧ ¬ playing.pump.sink_open ∧ isZeroPcm payload then
      playing.suppressSilence copied now
    else if playing.pump.state = .ready then playing.tryOpen sink now clock
    else playing.writeQuantum sink copied now clock

/-- The query for progress, which is made while nothing else is due. -/
def dueQuery (pump : AudioPump) (now : Nat) : Option (World → Int × World) :=
  if pump.config.continuous ∧ pump.progress_ready ∧ pump.progress_due_tick ≤ now ∧
      (pump.queue.available = 0 ∨ now < pump.next_deadline_tick) then
    sink.bind AudioSink.progress_fn
  else none

/-- Start at most one operation of the sink. -/
def pumpReady (playing : Playing World) (now : Nat) (running : Bool)
    (clock : Option (World → Nat × World)) : Playing World :=
  let pump := playing.pump
  if pump.pending_operation ≠ none then playing
  else if pump.close_pending then playing.retryClose sink now clock
  else if pump.state ≠ .ready ∧ pump.state ≠ .active then playing
  else if running = false ∨ pump.muted then playing.enterIdle sink
  else if pump.service_operations_cycle ≠ 0 then playing
  else match dueQuery sink pump now with
    | some query => playing.queryProgress query now clock
    | none => playing.playDue sink now clock

/-- What the end of the sink leaves. -/
def takeFinish (playing : Playing World) (finished : Finish) : Playing World :=
  let playing := match finished.completion with
    | none => playing
    | some completion => playing.completePending sink completion 0 true
  let playing := playing.takeProgress finished.progress
  let close_error :=
    if playing.pump.pending_operation ≠ none ∧ finished.error_code = 0 then
      AudioAbi.service_api_result_invalid
    else finished.error_code
  { playing with pump := { playing.pump with
      close_error
      last_error := if close_error < 0 then close_error else playing.pump.last_error
      sink_open := false } }

def endSink (playing : Playing World) : Playing World :=
  match sink with
  | none => playing
  | some device =>
    match device.finish_fn with
    | some finish =>
      let (finished, world) := finish playing.world
      { playing with world }.takeFinish sink finished
    | none => if playing.pump.sink_open then playing.closeSink sink else playing

/-- The end of the pump. -/
def close (playing : Playing World) : Playing World :=
  if playing.pump.state = .closed ∨ playing.pump.state = .disabled then playing
  else
    let playing := (playing.endSink sink).discardQueue
    { playing with pump := { playing.pump with close_pending := false, state := .closed } }

end Sinks

end Playing

end R4OS.Subsystem
