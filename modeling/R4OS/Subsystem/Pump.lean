import R4OS.Subsystem.Audio

/-!
# What the audio pump does

The operations of a pump on its sink: opening, writing, asking for progress and closing, the receipts
of operations that the sink completed later, and the ways in which PCM leaves the queue.
-/

namespace R4OS.Subsystem

open Buffer Text

namespace Playing

variable {World : Type}

/-- Note what happened to PCM. -/
def record (playing : Playing World) (entry : Entry UInt8) : Playing World :=
  { playing with log := playing.log ++ [.pcm entry] }

/-- Drop all PCM that waits. -/
def discardQueue (playing : Playing World) : Playing World :=
  let discarded := playing.pump.queue.available
  let pump := { playing.pump with queue := playing.pump.queue.clear }
  let pump := { pump with
    stats.discarded_bytes := pump.stats.discarded_bytes + .ofNat discarded
    stats.retired_discarded_bytes := pump.stats.retired_discarded_bytes +
      if pump.retire_pending_feedback then .ofNat discarded else 0 }
  { playing with pump }.record (.discarded discarded)

/-- A sink that is open has to be closed. -/
def wantClose (playing : Playing World) : Playing World :=
  if playing.pump.sink_open then { playing with pump.close_pending := true } else playing

/-- Drop what waits, now or with the receipt of the operation under way. -/
def dropWaiting (playing : Playing World) : Playing World :=
  if playing.pump.pending_operation ≠ none then
    { playing with pump.discard_after_pending := true }
  else playing.discardQueue

/-- Give the stream up. -/
def degrade (playing : Playing World) (error_code : Int) : Playing World :=
  let playing := playing.wantClose.dropWaiting
  { playing with pump := { playing.pump with
      resync_prefill_quanta := 0
      next_deadline_tick := 0
      open_retry_attempts := 0
      state := .degraded
      last_error := if error_code < 0 then error_code else audio_error_unavailable } }

section Sinks

variable [AudioAbi] (sink : Option (AudioSink World))

def completeClose (playing : Playing World) (rc : Int) : Playing World :=
  if rc < 0 ∧ sink.any AudioSink.polls then
    let playing := { playing with pump.close_pending := true }
    if rc ≠ AudioAbi.service_api_result_busy ∧ rc ≠ AudioAbi.service_api_result_timeout ∧
        rc ≠ audio_error_timeout then
      { playing with pump.state := .degraded, pump.last_error := rc }
    else playing
  else
    let playing :=
      if rc < 0 then { playing with pump.state := .degraded, pump.last_error := rc } else playing
    let pump := { playing.pump with
      progress_ready := false, sink_open := false, close_pending := false }
    { playing with pump := { pump with
        last_error := if rc = 0 ∧ pump.state ≠ .degraded then 0 else pump.last_error } }

def closeSink (playing : Playing World) : Playing World :=
  if playing.pump.pending_operation ≠ none then { playing with pump.close_pending := true }
  else if playing.pump.sink_open = false then { playing with pump.close_pending := false }
  else match sink with
    | none =>
      { playing with pump := { playing.pump with
          sink_open := false
          close_pending := false
          state := .degraded
          last_error := audio_error_unavailable } }
    | some device =>
      let pump := playing.pump.noteServiceOperation
      let (rc, world) := device.close_fn playing.world
      if rc = transport_pending ∧ device.polls then
        { playing with
          pump := { pump.beginPending .close 0 with close_pending := true }
          world }
      else completeClose sink { playing with pump, world } rc

/-- Close the sink, or later when an operation was started in this cycle. -/
def closeIdle (playing : Playing World) : Playing World :=
  if playing.pump.sink_open then
    if playing.pump.service_operations_cycle = 0 then playing.closeSink sink
    else { playing with pump.close_pending := true }
  else playing

/-- A pump that still works is ready again. -/
def becomeReady (playing : Playing World) : Playing World :=
  if playing.pump.state ≠ .disabled ∧ playing.pump.state ≠ .degraded ∧
      playing.pump.state ≠ .closed then
    { playing with pump.state := .ready, pump.last_error := 0 }
  else playing

/-- Stop playing: what waits is dropped, and the sink is closed. -/
def enterIdle (playing : Playing World) : Playing World :=
  let playing :=
    if playing.pump.pending_operation ≠ none then
      { playing with pump.discard_after_pending := true, pump.close_pending := true }
    else playing.discardQueue
  let playing := { playing with pump := { playing.pump with
    resync_prefill_quanta := 0, next_deadline_tick := 0, open_retry_attempts := 0 } }
  (playing.closeIdle sink).becomeReady

def resumePlayback (playing : Playing World) (now : Nat) : Playing World :=
  if playing.pump.state = .disabled ∨ playing.pump.state = .degraded ∨
      playing.pump.state = .closed then playing
  else
    let playing := playing.enterIdle sink
    { playing with pump.next_deadline_tick := if now = 0 then 1 else now }

def reset (playing : Playing World) (now : Nat) : Playing World :=
  let pump := { playing.pump with
    feedback_retire_current := true
    progress_record_retired := playing.pump.progress_seen }
  { playing with pump }.resumePlayback sink now

def pause (playing : Playing World) : Playing World :=
  if playing.pump.state = .disabled ∨ playing.pump.state = .degraded ∨
      playing.pump.state = .closed then playing
  else playing.enterIdle sink

def setMuted (playing : Playing World) (muted : Bool) (now : Nat) : Playing World :=
  if playing.pump.muted = muted then playing
  else
    let playing := { playing with pump.muted := muted }
    if playing.pump.state = .degraded then playing
    else if muted then playing.enterIdle sink
    else playing.reset sink now

def completeOpen (playing : Playing World) (rc : Int) (now : Nat) : Playing World :=
  if rc < 0 then
    let pump := { playing.pump with
      close_pending := playing.pump.close_pending || playing.pump.sink_open, last_error := rc }
    if retryableOpenError rc ∧ pump.open_retry_attempts < audio_open_retry_limit then
      { playing with pump := { pump with
          open_retry_attempts := pump.open_retry_attempts + 1
          next_deadline_tick := addSaturating now pump.open_retry_ticks } }
    else { playing with pump }.degrade rc
  else
    { playing with pump := { playing.pump with
        progress_ready := false
        state := .active
        sink_open := true
        last_error := 0
        open_retry_attempts := 0
        resync_prefill_quanta := playing.pump.config.target_quanta
        next_deadline_tick := if now = 0 then 1 else now } }

def tryOpen (playing : Playing World) (now : Nat) (clock : Option (World → Nat × World)) :
    Playing World :=
  if playing.pump.close_pending ∨ playing.pump.service_operations_cycle ≠ 0 then playing
  else match sink with
    | none => playing.degrade audio_error_unavailable
    | some device =>
      let pump := { playing.pump.noteServiceOperation with feedback_retire_current := false }
      let (rc, world) := device.open_fn playing.world pump.config
      if rc = transport_pending ∧ device.polls then
        { playing with pump := { pump.beginPending .open 0 with sink_open := true }, world }
      else
        let (tick, world) := currentHostTick clock world now
        { playing with pump, world }.completeOpen rc tick

/-- Believe a record of progress, or give the stream up. -/
def applyProgress (playing : Playing World) (record : ProgressState) : Playing World :=
  if AudioPump.ignores record then playing
  else if playing.pump.refuses record then playing.degrade AudioAbi.service_api_result_invalid
  else { playing with pump := playing.pump.absorb record }

/-- What a write comes to. -/
inductive SubmitResult
  | submitted
  | pending
  | busy
  | failed

/-- What is known of the frames of a write that the sink accepted. -/
def noteAccepted (pump : AudioPump) (accepted : Nat) : AudioPump :=
  match sink with
  | none => pump
  | some device =>
    if pump.config.continuous then
      let frames : UInt64 :=
        if device.progress_fn.isNone ∧ pump.config.sample_rate = 48000 then
          .ofNat (accepted / pump.queue.frame_bytes)
        else 0
      { pump with
        progress_ready := device.progress_fn.isSome
        stats.unconfirmed_frames := pump.stats.unconfirmed_frames + frames
        stats.retired_unconfirmed_frames := pump.stats.retired_unconfirmed_frames +
          if pump.feedback_retire_current ∨ pump.retire_pending_feedback then frames else 0 }
    else pump

/-- Count the bytes that the sink accepted. -/
def takeAccepted (playing : Playing World) (accepted : Nat) : Playing World :=
  let payload := playing.pump.scratch.take accepted
  let pump := { playing.pump with queue := (playing.pump.queue.discard accepted).2 }
  let pump := { pump with stats.submitted_bytes := pump.stats.submitted_bytes + .ofNat accepted }
  let pump := noteAccepted sink pump accepted
  let pump := { pump with
    stats.retired_submitted_bytes := pump.stats.retired_submitted_bytes +
      if pump.retire_pending_feedback then .ofNat accepted else 0 }
  { playing with pump }.record (.accepted payload)

/-- The answer to a write reports bytes that the sink accepted. -/
def reportsAccepted (pump : AudioPump) (written : Int) (copied : Nat) : Bool :=
  written ≠ AudioAbi.service_api_result_busy ∧ 0 < written ∧ written ≤ copied ∧
    written.toNat % pump.queue.frame_bytes = 0

def completeWrite (playing : Playing World) (written : Int) (copied : Nat) :
    SubmitResult × Playing World :=
  if written = AudioAbi.service_api_result_busy then (.busy, playing)
  else if ¬ (0 < written ∧ written ≤ copied ∧
      written.toNat % playing.pump.queue.frame_bytes = 0) then
    (.failed, playing.degrade (if written < 0 then written else audio_error_unavailable))
  else
    let accepted := written.toNat
    let playing := playing.takeAccepted sink accepted
    if accepted ≠ copied then (.busy, playing) else (.submitted, playing)

def submitQuantum (playing : Playing World) (copied : Nat) : SubmitResult × Playing World :=
  if playing.pump.state ≠ .active then (.failed, playing)
  else match sink with
    | none => (.failed, playing.degrade audio_error_unavailable)
    | some device =>
      let payload := playing.pump.scratch.take copied
      let pump := playing.pump.noteServiceOperation
      let (written, world) := device.write_fn playing.world payload
      if written = transport_pending ∧ device.polls then
        (.pending, { playing with pump := pump.beginPending .write copied, world })
      else { playing with pump, world }.completeWrite sink written copied

/-- The result of a receipt, which is worth nothing when it is not about the operation under way. -/
def receiptResult (pump : AudioPump) (operation : Operation) (completion : Completion) : Int :=
  let generation_ok :=
    if operation = .open then pump.sink_generation < completion.generation
    else completion.generation = pump.sink_generation
  if completion.operation ≠ operation ∨ completion.request_id = 0 ∨ ¬ generation_ok then
    AudioAbi.service_api_result_invalid
  else completion.result

/-- The operation under way is over. -/
def endPending (pump : AudioPump) (operation : Operation) (completion : Completion) : AudioPump :=
  { pump with
    sink_generation :=
      if operation = .open ∧ pump.sink_generation < completion.generation then
        completion.generation
      else pump.sink_generation
    pending_operation := none
    pending_bytes := 0 }

/-- When the next quantum is due after a write was settled. -/
def settleWrite (pump : AudioPump) (result : SubmitResult) (now : Nat) : AudioPump :=
  match result with
  | .submitted =>
    if pump.resync_prefill_quanta ≠ 0 then
      let left := pump.resync_prefill_quanta - 1
      { pump with
        resync_prefill_quanta := left
        next_deadline_tick := if left = 0 then addSaturating now pump.quantum_ticks else now }
    else { pump with next_deadline_tick := addSaturating pump.next_deadline_tick pump.quantum_ticks }
  | .busy => { pump with next_deadline_tick := addSaturating now pump.busy_retry_ticks }
  | .pending => pump
  | .failed => pump

/-- What the result of an operation means. -/
def completeOperation (playing : Playing World) (operation : Operation) (rc : Int) (bytes now : Nat) :
    Playing World :=
  match operation with
  | .open => playing.completeOpen rc now
  | .write =>
    let (result, playing) := playing.completeWrite sink rc bytes
    { playing with pump := settleWrite playing.pump result now }
  | .close => playing.completeClose sink rc
  | .progress =>
    if rc < 0 ∧ rc ≠ AudioAbi.service_api_result_busy then playing.degrade rc else playing
  | .volume => playing.degrade AudioAbi.service_api_result_invalid
  | .fence => playing.degrade AudioAbi.service_api_result_invalid

/-- What was put off until the operation under way is over. -/
def discardAfterPending (playing : Playing World) (terminal : Bool) : Playing World :=
  if playing.pump.discard_after_pending then
    let playing := { playing with pump.discard_after_pending := false }
    if terminal then playing.discardQueue else playing.enterIdle sink
  else playing

/-- The progress that comes with a receipt. -/
def takeProgress (playing : Playing World) (progress : Option ProgressState) : Playing World :=
  match progress with
  | none => playing
  | some record => playing.applyProgress record

/-- What a receipt says besides the result of its operation. -/
def takeReceipt (playing : Playing World) (operation : Operation) (completion : Completion)
    (now : Nat) : Playing World :=
  let playing := { playing with pump := endPending playing.pump operation completion }
  let playing := playing.takeProgress completion.progress
  { playing with
    pump.progress_due_tick := addSaturating now (max (playing.pump.quantum_ticks / 2) 1) }

def completePending (playing : Playing World) (completion : Completion) (now : Nat)
    (terminal : Bool) : Playing World :=
  match playing.pump.pending_operation with
  | none => playing
  | some operation =>
    let rc := receiptResult playing.pump operation completion
    let bytes := playing.pump.pending_bytes
    let playing := playing.takeReceipt operation completion now
    let playing := playing.completeOperation sink operation rc bytes now
    let playing := playing.discardAfterPending sink terminal
    { playing with pump.retire_pending_feedback := false }

def pollPending (playing : Playing World) (now : Nat) (clock : Option (World → Nat × World)) :
    Playing World :=
  if playing.pump.pending_operation = none then playing
  else match sink.bind AudioSink.poll_fn with
    | none => playing
    | some poll =>
      match poll playing.world with
      | (none, world) => { playing with world }
      | (some completion, world) =>
        let (tick, world) := currentHostTick clock world now
        { playing with world }.completePending sink completion tick false

end Sinks

end Playing

end R4OS.Subsystem
