import R4OS.Buffer.Ledger
import R4OS.Subsystem.Clock
import R4OS.Subsystem.PcmQueue

/-!
# The audio pump

The pump takes PCM from a guest into a queue and hands it to a sink, one quantum when it is due.  A
sink answers at once or accepts an operation and answers when it is polled.  Counters that the pump
only writes for diagnosis are left out.
-/

namespace R4OS.Subsystem

open Buffer Text

/-- The constants of the audio service that answers are compared with. -/
class AudioAbi where
  service_api_result_busy : Int
  service_api_result_invalid : Int
  service_api_result_timeout : Int
  service_api_result_full : Int
  service_api_result_no_endpoint : Int
  service_api_result_not_running : Int
  audio_progress_source_valid : Nat
  audio_progress_device_valid : Nat
  audio_format_s16le : Nat

def audio_open_retry_limit : Nat := 3

def audio_open_retry_nanoseconds : Nat := 50000000

def audio_error_timeout : Int := -9601

def audio_error_unavailable : Int := -9602

def transport_pending : Int := -9603

def runtime_error_guest_audio : Int := -9610

/-- Why a runtime or its audio cannot be set up. -/
inductive SetupError
  | unknown_frequency
  | invalid_configuration
  | invalid_audio_configuration
  | audio_queue_too_small
  | audio_scratch_too_small
  | overflow
  deriving DecidableEq

/-- The format and the pace of a stream. -/
structure AudioConfig where
  sample_rate : Nat := 48000
  channels : Nat := 2
  quantum_frames : Nat := 480
  target_quanta : Nat := 2
  max_catchup_quanta : Nat := 2
  busy_retry_nanoseconds : Nat := 10000000
  continuous : Bool := false

/-- A product that fits a machine word. -/
def mulChecked (left right : Nat) : Except SetupError Nat :=
  if left * right ≤ maxWord then .ok (left * right) else .error .overflow

namespace AudioConfig

def frameBytes (config : AudioConfig) : Except SetupError Nat :=
  if config.sample_rate = 0 ∨ config.channels = 0 then .error .invalid_audio_configuration
  else mulChecked config.channels 2

def quantumBytes (config : AudioConfig) : Except SetupError Nat :=
  if config.quantum_frames = 0 then .error .invalid_audio_configuration
  else do mulChecked (← config.frameBytes) config.quantum_frames

def targetBytes (config : AudioConfig) : Except SetupError Nat :=
  if config.target_quanta = 0 then .error .invalid_audio_configuration
  else do mulChecked (← config.quantumBytes) config.target_quanta

end AudioConfig

def durationToTicks (nanoseconds monotonic_hz : Nat) : Except SetupError Nat :=
  if monotonic_hz = 0 then .error .unknown_frequency
  else if nanoseconds = 0 then .ok 0
  else
    let product := nanoseconds * monotonic_hz
    let rounded := (product + nanoseconds_per_second - 1) / nanoseconds_per_second
    .ok (min rounded maxWord)

/-- How far the frames of a stream have come. -/
structure StreamProgress where
  flags : Nat := 0
  stream_generation : UInt64 := 0
  rate : Nat := 0
  channels : Nat := 0
  format : Nat := 0
  accepted_frames : UInt64 := 0
  backend_frames : UInt64 := 0
  submitted_frames : UInt64 := 0
  consumed_frames : UInt64 := 0
  unconfirmed_frames : UInt64 := 0
  queued_frames : UInt64 := 0
  queue_age_ns : UInt64 := 0
  source_starvations : UInt64 := 0

/-- A record of the progress of a stream. -/
structure ProgressState where
  service_epoch : UInt64 := 0
  stream_generation : UInt64 := 0
  progress : StreamProgress := {}

/-- An operation of a sink. -/
inductive Operation
  | open
  | write
  | volume
  | close
  | fence
  | progress
  deriving DecidableEq

/-- The receipt of an operation that a sink accepted. -/
structure Completion where
  operation : Operation
  request_id : Nat
  generation : Nat
  result : Int
  progress : Option ProgressState := none

/-- What the end of a sink leaves. -/
structure Finish where
  completion : Option Completion := none
  error_code : Int := 0
  progress : Option ProgressState := none

/-- Where PCM goes. -/
structure AudioSink (World : Type) where
  open_fn : World → AudioConfig → Int × World
  write_fn : World → Bytes → Int × World
  close_fn : World → Int × World
  poll_fn : Option (World → Option Completion × World) := none
  finish_fn : Option (World → Finish × World) := none
  progress_fn : Option (World → Int × World) := none

/-- The sink completes operations when it is polled. -/
def AudioSink.polls {World : Type} (sink : AudioSink World) : Bool := sink.poll_fn.isSome

inductive AudioState
  | disabled
  | ready
  | active
  | degraded
  | closed
  deriving DecidableEq

/-- The counters of a pump that something reads. -/
structure AudioStats where
  playback_frames : Option UInt64 := none
  backend_frames : UInt64 := 0
  dma_frames : UInt64 := 0
  unconfirmed_frames : UInt64 := 0
  queued_frames : UInt64 := 0
  queue_age_ns : UInt64 := 0
  source_starvations : UInt64 := 0
  retired_playback_frames : UInt64 := 0
  retired_unconfirmed_frames : UInt64 := 0
  generated_bytes : UInt64 := 0
  submitted_bytes : UInt64 := 0
  suppressed_bytes : UInt64 := 0
  discarded_bytes : UInt64 := 0
  retired_submitted_bytes : UInt64 := 0
  retired_discarded_bytes : UInt64 := 0
  maximum_service_operations_per_cycle : Nat := 0

structure AudioPump where
  config : AudioConfig := {}
  queue : PcmQueue := { storage := [] }
  scratch : Bytes := []
  state : AudioState := .disabled
  last_error : Int := 0
  muted : Bool := false
  next_deadline_tick : Nat := 0
  quantum_ticks : Nat := 1
  monotonic_hz : Nat := 0
  busy_retry_ticks : Nat := 1
  open_retry_ticks : Nat := 1
  open_retry_attempts : Nat := 0
  resync_prefill_quanta : Nat := 0
  sink_open : Bool := false
  close_pending : Bool := false
  pending_operation : Option Operation := none
  pending_bytes : Nat := 0
  discard_after_pending : Bool := false
  retire_pending_feedback : Bool := false
  sink_generation : Nat := 0
  close_error : Int := 0
  close_retry_tick : Nat := 0
  service_operations_cycle : Nat := 0
  stats : AudioStats := {}
  progress_record : ProgressState := {}
  progress_seen : Bool := false
  progress_ready : Bool := false
  progress_due_tick : Nat := 0
  feedback_retire_current : Bool := false
  progress_record_retired : Bool := false

/-- What a pump is set up with. -/
structure AudioOptions where
  config : AudioConfig := {}
  queue_storage : Bytes
  scratch : Bytes

/-- Refuse a setup. -/
def require (holds : Bool) (error : SetupError) : Except SetupError Unit :=
  if holds then .ok () else .error error

/-- What a guest learns about its stream. -/
structure AudioFeedback where
  state : AudioState
  muted : Bool
  accepted_bytes : UInt64 := 0
  suppressed_bytes : UInt64 := 0
  discarded_bytes : UInt64 := 0
  playback_frames : Option UInt64 := none
  backend_frames : UInt64 := 0
  dma_frames : UInt64 := 0
  unconfirmed_frames : UInt64 := 0
  queued_frames : UInt64 := 0
  queue_age_ns : UInt64 := 0
  source_starvations : UInt64 := 0

/-- What happened around a pump: moves of PCM, resets of the guest, feedback to it. -/
inductive AudioEvent
  | pcm (entry : Entry UInt8)
  | reset
  | feedback (report : AudioFeedback)

/-- A pump in its world, and what happened so far. -/
structure Playing (World : Type) where
  pump : AudioPump
  world : World
  log : List AudioEvent := []

namespace AudioPump

def init {World : Type} (options : AudioOptions) (sink : Option (AudioSink World))
    (monotonic_hz : Nat) : Except SetupError AudioPump := do
  require (sink.all fun sink => !sink.polls || sink.finish_fn.isSome) .invalid_audio_configuration
  let frame_bytes ← options.config.frameBytes
  let quantum_bytes ← options.config.quantumBytes
  let target_bytes ← options.config.targetBytes
  require (options.config.max_catchup_quanta ≠ 0 ∧ options.config.busy_retry_nanoseconds ≠ 0)
    .invalid_audio_configuration
  require (target_bytes ≤ options.queue_storage.length) .audio_queue_too_small
  require (quantum_bytes ≤ options.scratch.length) .audio_scratch_too_small
  let quantum_ns_product := options.config.quantum_frames * nanoseconds_per_second
  let quantum_ns :=
    (quantum_ns_product + options.config.sample_rate - 1) / options.config.sample_rate
  let quantum_ticks ← durationToTicks quantum_ns monotonic_hz
  let busy_retry_ticks ← durationToTicks options.config.busy_retry_nanoseconds monotonic_hz
  let open_retry_ticks ← durationToTicks audio_open_retry_nanoseconds monotonic_hz
  let queue ← (PcmQueue.init options.queue_storage frame_bytes).elim
    (.error .audio_queue_too_small) .ok
  return {
    config := options.config
    queue
    scratch := options.scratch.take quantum_bytes
    state := .ready
    quantum_ticks := max 1 quantum_ticks
    monotonic_hz
    busy_retry_ticks := max 1 busy_retry_ticks
    open_retry_ticks := max 1 open_retry_ticks }

def start (pump : AudioPump) : AudioPump :=
  if pump.state = .disabled ∨ pump.state = .active ∨ pump.state = .degraded then pump
  else { pump with queue := pump.queue.clear, next_deadline_tick := 0 }

def beginCycle (pump : AudioPump) : AudioPump := { pump with service_operations_cycle := 0 }

def noteServiceOperation (pump : AudioPump) : AudioPump :=
  let operations := min (pump.service_operations_cycle + 1) 65535
  { pump with
    service_operations_cycle := operations
    stats.maximum_service_operations_per_cycle :=
      max pump.stats.maximum_service_operations_per_cycle operations }

def beginPending (pump : AudioPump) (operation : Operation) (bytes : Nat) : AudioPump :=
  { pump with pending_operation := some operation, pending_bytes := bytes }

section Progress

variable [AudioAbi]

/-- A record that says nothing about a source. -/
def ignores (record : ProgressState) : Bool :=
  record.progress.flags &&& AudioAbi.audio_progress_source_valid = 0 ∨
    record.progress.stream_generation = 0

/-- A record about another format, or whose positions do not fit together. -/
def malformed (record : ProgressState) : Bool :=
  let p := record.progress
  p.rate ≠ 48000 ∨ p.channels ≠ 2 ∨ p.format ≠ AudioAbi.audio_format_s16le ∨
    p.submitted_frames < p.consumed_frames ∨ p.backend_frames < p.submitted_frames ∨
    p.accepted_frames < p.backend_frames ∨
    p.accepted_frames - p.consumed_frames < p.unconfirmed_frames ∨
    p.queued_frames ≠ p.accepted_frames - p.consumed_frames - p.unconfirmed_frames

def sameStream (pump : AudioPump) (record : ProgressState) : Bool :=
  pump.progress_seen ∧ record.service_epoch = pump.progress_record.service_epoch ∧
    record.stream_generation = pump.progress_record.stream_generation ∧
    record.progress.stream_generation = pump.progress_record.progress.stream_generation

def oldProgress (pump : AudioPump) (record : ProgressState) : StreamProgress :=
  if pump.sameStream record then pump.progress_record.progress else {}

/-- A record that falls behind the one before. -/
def regresses (pump : AudioPump) (record : ProgressState) : Bool :=
  let p := record.progress
  let old := pump.oldProgress record
  p.consumed_frames < old.consumed_frames ∨ p.submitted_frames < old.submitted_frames ∨
    p.backend_frames < old.backend_frames ∨ p.unconfirmed_frames < old.unconfirmed_frames ∨
    p.source_starvations < old.source_starvations

def refuses (pump : AudioPump) (record : ProgressState) : Bool :=
  !ignores record && (malformed record || pump.regresses record)

/-- What is left of the stream before, when a record is about another one. -/
def leaveStream (pump : AudioPump) (record : ProgressState) : AudioStats :=
  if pump.progress_seen ∧ ¬ pump.sameStream record then
    let queued := pump.progress_record.progress.queued_frames
    { pump.stats with
      unconfirmed_frames := pump.stats.unconfirmed_frames + queued
      retired_unconfirmed_frames := pump.stats.retired_unconfirmed_frames +
        if pump.progress_record_retired then queued else 0 }
  else pump.stats

def absorb (pump : AudioPump) (record : ProgressState) : AudioPump :=
  let p := record.progress
  let old := pump.oldProgress record
  let stats := pump.leaveStream record
  let retired (frames : UInt64) : UInt64 := if pump.feedback_retire_current then frames else 0
  { pump with
    stats := { stats with
      playback_frames :=
        if stats.playback_frames ≠ none ∨
            p.flags &&& AudioAbi.audio_progress_device_valid ≠ 0 ∨ p.consumed_frames ≠ 0 then
          some (stats.playback_frames.getD 0 + (p.consumed_frames - old.consumed_frames))
        else none
      backend_frames := stats.backend_frames + (p.backend_frames - old.backend_frames)
      dma_frames := stats.dma_frames + (p.submitted_frames - old.submitted_frames)
      unconfirmed_frames :=
        stats.unconfirmed_frames + (p.unconfirmed_frames - old.unconfirmed_frames)
      retired_playback_frames :=
        stats.retired_playback_frames + retired (p.consumed_frames - old.consumed_frames)
      retired_unconfirmed_frames :=
        stats.retired_unconfirmed_frames + retired (p.unconfirmed_frames - old.unconfirmed_frames)
      source_starvations :=
        stats.source_starvations + (p.source_starvations - old.source_starvations)
      queued_frames := p.queued_frames
      queue_age_ns := p.queue_age_ns }
    progress_record := record
    progress_seen := true
    progress_record_retired := pump.feedback_retire_current }

end Progress

end AudioPump

/-- An error after which a stream may be opened again. -/
def retryableOpenError [AudioAbi] (raw : Int) : Bool :=
  raw = audio_error_timeout ∨ raw = AudioAbi.service_api_result_timeout ∨
    raw = AudioAbi.service_api_result_busy ∨ raw = AudioAbi.service_api_result_full ∨
    raw = AudioAbi.service_api_result_no_endpoint ∨ raw = AudioAbi.service_api_result_not_running

def currentHostTick {World : Type} (clock : Option (World → Nat × World)) (world : World)
    (fallback_tick : Nat) : Nat × World :=
  match clock with
  | some ticks => ticks world
  | none => (fallback_tick, world)

def isZeroPcm (data : Bytes) : Bool := data.all fun byte => byte = 0

end R4OS.Subsystem
