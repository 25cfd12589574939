import R4OS.Subsystem.PumpCycle

/-!
# The runtime of a subsystem

A runtime drives a guest: it polls the host, gives the guest slices, presents its frames and serves its
audio, one cycle after another.  Its counters for diagnosis and the yields of its loop are left out.
-/

namespace R4OS.Subsystem

open Buffer Text

def runtime_error_host_poll : Int := -9612

def host_presented : Int := 1

inductive LifecycleState
  | ready
  | running
  | paused
  | completed
  | failed
  | closed
  deriving DecidableEq

inductive LifecycleCommand
  | none
  | pause
  | resume_running
  | toggle_pause
  | reset
  | mute
  | unmute
  | toggle_mute
  | close

/-- What the host has for the runtime. -/
inductive HostPollResult
  | idle
  | ignored
  | handled
  | present
  | command (command : LifecycleCommand)
  | failure (raw : Int)

structure HostDriver (World : Type) where
  poll_fn : World → HostPollResult × World
  present_fn : World → Int × World
  should_close_fn : Option (World → Bool × World) := none

/-- The limits of a runtime. -/
structure Config where
  slice_budget : Nat := 262144
  max_input_events : Nat := 64
  max_wait_ticks : Nat
  idle_retry_ticks : Nat := 1

/-- What a cycle ends with when it is the last one. -/
structure Finished where
  state : LifecycleState
  exit_code : Int

/-- A runtime without its audio. -/
structure Runtime where
  config : Config
  clock : GuestClock
  state : LifecycleState := .ready
  exit_code : Int := 0
  guest_wake_ns : Nat := 0
  guest_waiting : Bool := false
  present_pending : Bool := false
  guest_idle_polling : Bool := false
  host_backlog_pending : Bool := false
  post_present_poll_pending : Bool := false
  started : Bool := false
  resources_closed : Bool := false
  audio_feedback_submitted_bytes : UInt64 := 0
  audio_feedback_suppressed_bytes : UInt64 := 0
  audio_feedback_discarded_bytes : UInt64 := 0
  audio_feedback_state : AudioState := .disabled
  audio_feedback_muted : Bool := false
  audio_feedback_initialized : Bool := false
  audio_feedback_playback_frames : Option UInt64 := none
  audio_feedback_unconfirmed_frames : UInt64 := 0
  audio_feedback_playback_base : UInt64 := 0
  audio_feedback_unconfirmed_base : UInt64 := 0

def LifecycleState.isTerminal (state : LifecycleState) : Bool :=
  state = .completed ∨ state = .failed ∨ state = .closed

/-- Subtraction that stops at zero. -/
def subSaturating (left right : UInt64) : UInt64 := if right ≤ left then left - right else 0

/-- What a runtime works with. -/
structure Drivers (World : Type) where
  guest : GuestDriver World
  host : HostDriver World
  sink : Option (AudioSink World) := none
  ticks : World → Nat × World

/-- A runtime with its audio in their world. -/
structure Session (World : Type) extends Playing World where
  runtime : Runtime

namespace Session

variable {World : Type}

/-- A runtime before its start. -/
def init (config : Config) (monotonic_hz host_tick : Nat) (audio : Option AudioOptions)
    (sink : Option (AudioSink World)) (world : World) : Except SetupError (Session World) := do
  require (config.slice_budget ≠ 0 ∧ config.max_input_events ≠ 0 ∧ config.max_wait_ticks ≠ 0 ∧
    config.idle_retry_ticks ≠ 0) .invalid_configuration
  require (monotonic_hz ≠ 0) .unknown_frequency
  let pump ← audio.elim (.ok {}) fun options => AudioPump.init options sink monotonic_hz
  return {
    pump
    world
    runtime := { config, clock := { monotonic_hz, last_host_tick := host_tick } } }

def start (session : Session World) (host_tick : Nat) : Session World :=
  if session.runtime.started then session
  else
    { session with
      pump := session.pump.start
      runtime := { session.runtime with
        clock := session.runtime.clock.reset host_tick
        state := .running
        started := true
        resources_closed := false } }

def fail (session : Session World) (raw : Int) : Session World :=
  { session with
    runtime.state := .failed
    runtime.exit_code := if raw = 0 then -1 else raw }

/-- The bytes that were accepted, without those of an earlier guest. -/
def submittedBytes (stats : AudioStats) : UInt64 :=
  subSaturating stats.submitted_bytes stats.retired_submitted_bytes

/-- The bytes that were discarded, without those of an earlier guest. -/
def discardedBytes (stats : AudioStats) : UInt64 :=
  subSaturating stats.discarded_bytes stats.retired_discarded_bytes

/-- The frames that were played of this guest. -/
def playbackFrames (session : Session World) : Option UInt64 :=
  session.pump.stats.playback_frames.map fun frames =>
    subSaturating (subSaturating frames session.pump.stats.retired_playback_frames)
      session.runtime.audio_feedback_playback_base

/-- The frames of this guest of which it is not known whether they were played. -/
def unconfirmedFrames (session : Session World) : UInt64 :=
  subSaturating
    (subSaturating session.pump.stats.unconfirmed_frames
      session.pump.stats.retired_unconfirmed_frames)
    session.runtime.audio_feedback_unconfirmed_base

/-- What the guest would learn now. -/
def feedback (session : Session World) : AudioFeedback :=
  let stats := session.pump.stats
  { state := session.pump.state
    muted := session.pump.muted
    accepted_bytes :=
      subSaturating (submittedBytes stats) session.runtime.audio_feedback_submitted_bytes
    suppressed_bytes :=
      subSaturating stats.suppressed_bytes session.runtime.audio_feedback_suppressed_bytes
    discarded_bytes :=
      subSaturating (discardedBytes stats) session.runtime.audio_feedback_discarded_bytes
    playback_frames := session.playbackFrames
    backend_frames := stats.backend_frames
    dma_frames := stats.dma_frames
    unconfirmed_frames := session.unconfirmedFrames
    queued_frames := stats.queued_frames
    queue_age_ns := stats.queue_age_ns
    source_starvations := stats.source_starvations }

/-- There is something that the guest did not learn yet. -/
def feedbackDue (session : Session World) : Bool :=
  let runtime := session.runtime
  let report := session.feedback
  let state_changed := ¬ runtime.audio_feedback_initialized ∨
    runtime.audio_feedback_state ≠ session.pump.state ∨
    runtime.audio_feedback_muted ≠ session.pump.muted
  let unavailable_wait := runtime.guest_waiting ∧ (session.pump.muted ∨
    session.pump.state = .disabled ∨ session.pump.state = .degraded ∨
    session.pump.state = .closed)
  let playback_changed :=
    runtime.audio_feedback_playback_frames ≠ report.playback_frames ∨
    runtime.audio_feedback_unconfirmed_frames ≠ report.unconfirmed_frames
  state_changed ∨ playback_changed ∨ report.accepted_bytes ≠ 0 ∨ report.suppressed_bytes ≠ 0 ∨
    report.discarded_bytes ≠ 0 ∨ unavailable_wait

/-- A report is on its way to the guest. -/
def noteFeedback (session : Session World) (report : AudioFeedback) : Session World :=
  { session with
    log := session.log ++ [.feedback report]
    runtime := { session.runtime with
      audio_feedback_submitted_bytes := submittedBytes session.pump.stats
      audio_feedback_suppressed_bytes := session.pump.stats.suppressed_bytes
      audio_feedback_discarded_bytes := discardedBytes session.pump.stats
      audio_feedback_state := session.pump.state
      audio_feedback_muted := session.pump.muted
      audio_feedback_initialized := true
      audio_feedback_playback_frames := report.playback_frames
      audio_feedback_unconfirmed_frames := report.unconfirmed_frames } }

/-- The guest has something to do. -/
def wakeGuest (session : Session World) : Session World :=
  { session with runtime := { session.runtime with
      guest_wake_ns := 0, guest_waiting := false, guest_idle_polling := false } }

/-- Tell the guest what it did not learn yet. -/
def deliverAudioFeedback (session : Session World) (guest : GuestDriver World) : Session World :=
  if session.feedbackDue then
    let report := session.feedback
    let session := session.noteFeedback report
    match guest.audio_feedback_fn with
    | none => session
    | some callback =>
      let (woken, world) := callback session.world report
      let session := { session with world }
      if woken then session.wakeGuest else session
  else session

section Requests

variable [AudioAbi] (drivers : Drivers World)

/-- Let the pump do something. -/
def audio (session : Session World) (work : Playing World → Playing World) : Session World :=
  { session with toPlaying := work session.toPlaying }

def requestPause (session : Session World) (host_tick : Nat) : Session World :=
  if session.runtime.state = .running then
    let session := { session with runtime.clock := session.runtime.clock.pause host_tick }
    let session := session.audio (Playing.pause drivers.sink)
    { session with runtime.state := .paused }
  else session

def requestResume (session : Session World) (host_tick : Nat) : Session World :=
  if session.runtime.state = .paused then
    let session := { session with runtime.clock := session.runtime.clock.resumeAt host_tick }
    let session := session.audio fun playing => playing.resumePlayback drivers.sink host_tick
    { session with runtime.state := .running }
  else session

/-- Start the feedback of a new guest. -/
def restartFeedback (session : Session World) : Session World :=
  let stats := session.pump.stats
  { session with
    log := session.log ++ [.reset]
    runtime := { session.runtime with
      audio_feedback_submitted_bytes := submittedBytes stats
      audio_feedback_discarded_bytes := discardedBytes stats
      audio_feedback_suppressed_bytes := stats.suppressed_bytes
      audio_feedback_playback_base :=
        subSaturating (stats.playback_frames.getD 0) stats.retired_playback_frames
      audio_feedback_unconfirmed_base :=
        subSaturating stats.unconfirmed_frames stats.retired_unconfirmed_frames
      audio_feedback_playback_frames := stats.playback_frames.map fun _ => 0
      audio_feedback_unconfirmed_frames := 0 } }

/-- A guest that was reset starts over. -/
def restart (session : Session World) (host_tick : Nat) : Session World :=
  let session := { session with runtime.clock := session.runtime.clock.reset host_tick }
  let session := session.audio fun playing => playing.reset drivers.sink host_tick
  let session := session.restartFeedback.wakeGuest
  { session with
    runtime.present_pending := true
    runtime.state := .running }

def requestReset (session : Session World) (host_tick : Nat) : Session World :=
  let session := { session with
    pump.retire_pending_feedback := decide (session.pump.pending_operation ≠ none) }
  let (rc, world) := drivers.guest.reset_fn session.world
  let session := { session with world }
  if rc < 0 then session.fail rc else session.restart drivers host_tick

def request (session : Session World) (command : LifecycleCommand) (host_tick : Nat) :
    Session World :=
  if session.runtime.state.isTerminal then session
  else match command with
    | .none => session
    | .pause => session.requestPause drivers host_tick
    | .resume_running => session.requestResume drivers host_tick
    | .toggle_pause =>
      if session.runtime.state = .paused then session.requestResume drivers host_tick
      else session.requestPause drivers host_tick
    | .reset => session.requestReset drivers host_tick
    | .mute => session.audio fun playing => playing.setMuted drivers.sink true host_tick
    | .unmute => session.audio fun playing => playing.setMuted drivers.sink false host_tick
    | .toggle_mute =>
      session.audio fun playing => playing.setMuted drivers.sink (!playing.pump.muted) host_tick
    | .close => { session with runtime.state := .closed, runtime.exit_code := 0 }

def shutdown (session : Session World) : Session World :=
  if session.runtime.resources_closed then session
  else
    let session := session.audio (Playing.close drivers.sink)
    { session with runtime.resources_closed := decide (session.pump.close_error = 0) }

def finish (session : Session World) : Finished × Session World :=
  let session := session.shutdown drivers
  let session :=
    if session.pump.close_error < 0 ∧ session.runtime.exit_code = 0 then
      { session with
        runtime.state := .failed
        runtime.exit_code := session.pump.close_error }
    else session
  (⟨session.runtime.state, session.runtime.exit_code⟩, session)

/-- The start of a cycle. -/
def beginCycle (session : Session World) (host_tick : Nat) : Session World :=
  let session := session.start host_tick
  { session with
    pump := session.pump.beginCycle
    runtime := { session.runtime with
      post_present_poll_pending := false
      clock := session.runtime.clock.sync host_tick } }

/-- The host wants the runtime to end. -/
def checkClose (session : Session World) : Bool × Session World :=
  match drivers.host.should_close_fn with
  | none => (false, session)
  | some should_close =>
    let (answer, world) := should_close session.world
    (answer, { session with world })

/-- Take the events of the host; whether there may be more of them. -/
def pollHost (host_tick : Nat) : Nat → Session World → Bool × Session World
  | 0, session => (true, session)
  | events + 1, session =>
    let (result, world) := drivers.host.poll_fn session.world
    let session := { session with world }
    match result with
    | .idle => (false, session)
    | .ignored => pollHost host_tick events session
    | .handled => pollHost host_tick events { session with runtime.guest_waiting := false }
    | .present => pollHost host_tick events { session with runtime.present_pending := true }
    | .command command =>
      let session := session.request drivers command host_tick
      if session.runtime.state.isTerminal then (false, session)
      else pollHost host_tick events session
    | .failure raw => (false, session.fail (if raw < 0 then raw else runtime_error_host_poll))

/-- The guest has something to do. -/
def guestReady (session : Session World) : Bool :=
  ¬ session.runtime.guest_waiting ∨ (session.runtime.guest_wake_ns ≠ 0 ∧
    session.runtime.guest_wake_ns ≤ session.runtime.clock.guest_ns)

/-- What a slice of the guest leaves. -/
def takeStep (session : Session World) (step : StepResult) : Session World :=
  let session := { session with
    runtime.guest_idle_polling :=
      decide (step.status = StepStatus.progress ∧ step.operations = 0 ∧ step.wake_guest_ns = 0)
    runtime.present_pending := session.runtime.present_pending || step.frame_ready }
  match step.status with
  | .progress =>
    { session with
      runtime.guest_wake_ns := step.wake_guest_ns
      runtime.guest_waiting := decide (step.wake_guest_ns ≠ 0) }
  | .waiting =>
    { session with
      runtime.guest_wake_ns := step.wake_guest_ns
      runtime.guest_waiting := true }
  | .completed =>
    { session with
      runtime.state := .completed
      runtime.exit_code := step.exit_code }
  | .failed => session.fail step.exit_code

/-- Give the guest a slice when it is ready; whether it got one. -/
def stepGuest (session : Session World) : Bool × Session World :=
  if session.runtime.state = .running ∧ session.guestReady then
    let (step, world) := drivers.guest.step_fn session.world session.runtime.config.slice_budget
      session.runtime.clock.guest_ns
    (true, { session with world, runtime.guest_wake_ns := 0 }.takeStep step)
  else (false, session)

def presentFrame (session : Session World) : Session World :=
  if session.runtime.present_pending ∧ session.runtime.state ≠ .failed ∧
      session.runtime.state ≠ .closed then
    let (presented, world) := drivers.host.present_fn session.world
    let session := { session with world }
    if presented < 0 then session.fail presented
    else if presented = host_presented then
      { session with
        runtime.present_pending := false
        runtime.post_present_poll_pending := true }
    else { session with runtime.present_pending := false }
  else session

/-- Take new PCM while the guest runs. -/
def fillAudio (session : Session World) (host_tick : Nat) (guest_stepped : Bool) : Session World :=
  if session.runtime.state = .running then
    let (answer, playing) := session.toPlaying.fill drivers.guest host_tick guest_stepped
    let session := { session with toPlaying := playing }
    if answer < 0 then session.fail answer else session
  else session

/-- The cycle from the events of the host to the frame; whether the guest got a slice. -/
def guestCycle (session : Session World) (host_tick : Nat) : Bool × Session World :=
  let session :=
    if session.runtime.state = .running then
      session.audio fun playing => playing.resyncLate host_tick
    else session
  let session := session.deliverAudioFeedback drivers.guest
  let (guest_stepped, session) := session.stepGuest drivers
  (guest_stepped, session.presentFrame drivers)

/-- The cycle up to the operation of the sink. -/
def beforePump (session : Session World) (host_tick : Nat)
    (clock : Option (World → Nat × World)) : Session World :=
  let (guest_stepped, session) := session.guestCycle drivers host_tick
  let session := session.audio fun playing => playing.pollPending drivers.sink host_tick clock
  session.fillAudio drivers host_tick guest_stepped

/-- The operation of the sink, and what the guest learns of it. -/
def servePump (session : Session World) (host_tick : Nat) (clock : Option (World → Nat × World)) :
    Session World :=
  let session := session.audio fun playing =>
    playing.pumpReady drivers.sink host_tick (decide (session.runtime.state = .running)) clock
  session.deliverAudioFeedback drivers.guest

/-- The cycle up to the end of the events of the host; whether it ends there. -/
def pollCycle (session : Session World) (host_tick : Nat) : Bool × Session World :=
  let (should_close, session) := (session.beginCycle host_tick).checkClose drivers
  if should_close then (true, session.request drivers .close host_tick)
  else
    let (backlog, session) :=
      pollHost drivers host_tick session.runtime.config.max_input_events session
    (session.runtime.state.isTerminal, { session with runtime.host_backlog_pending := backlog })

/-- A cycle; what it ends with when it is the last one. -/
def cycleWork (session : Session World) (host_tick : Nat) (clock : Option (World → Nat × World)) :
    Option Finished × Session World :=
  let (ended, session) := session.pollCycle drivers host_tick
  if ended then
    let (finished, session) := session.finish drivers
    (some finished, session)
  else
    let session := (session.beforePump drivers host_tick clock).servePump drivers host_tick clock
    if session.runtime.state.isTerminal then
      let (finished, session) := session.finish drivers
      (some finished, session)
    else (none, session)

end Requests

/-- The least time until something the audio waits for. -/
def audioWait (pump : AudioPump) (host_tick wait : Nat) : Nat :=
  let wait := if pump.close_pending ∧ pump.pending_operation = none then
    min wait (pump.close_retry_tick - host_tick) else wait
  let wait := if pump.pending_operation ≠ none then min wait 1 else wait
  if pump.pending_operation = none ∧ pump.progress_ready ∧ pump.config.continuous then
    min wait (pump.progress_due_tick - host_tick)
  else wait

/-- The least time until the next quantum is due. -/
def quantumWait (pump : AudioPump) (host_tick wait : Nat) : Nat :=
  if pump.pending_operation = none ∧ (pump.state = .ready ∨ pump.state = .active) ∧
      pump.next_deadline_tick ≠ 0 then
    min wait (if pump.next_deadline_tick ≤ host_tick then 0 else pump.next_deadline_tick - host_tick)
  else wait

def nextWait (session : Session World) (host_tick : Nat) : Nat :=
  let runtime := session.runtime
  if runtime.host_backlog_pending ∨ runtime.post_present_poll_pending then 0
  else
    let wait := audioWait session.pump host_tick runtime.config.max_wait_ticks
    if runtime.state = .running then
      if runtime.guest_idle_polling then
        quantumWait session.pump host_tick (min wait runtime.config.idle_retry_ticks)
      else if ¬ runtime.guest_waiting then 0
      else if runtime.guest_wake_ns ≠ 0 then
        quantumWait session.pump host_tick
          (min wait ((runtime.clock.sync host_tick).ticksUntil runtime.guest_wake_ns))
      else quantumWait session.pump host_tick wait
    else quantumWait session.pump host_tick wait

/-- A call of a runtime: a cycle, with the clock of the run loop or without it, a request, the failure
of the wait in the run loop, and the shutdown. -/
inductive Call
  | cycle (host_tick : Nat) (live : Bool)
  | request (command : LifecycleCommand) (host_tick : Nat)
  | waitFailed (raw : Int)
  | shutdown

def call [AudioAbi] (drivers : Drivers World) (session : Session World) : Call → Session World
  | .cycle host_tick live =>
    (session.cycleWork drivers host_tick (if live then some drivers.ticks else none)).2
  | .request command host_tick => session.request drivers command host_tick
  | .waitFailed raw => session.fail raw
  | .shutdown => session.shutdown drivers

/-- The state after some calls. -/
def run [AudioAbi] (drivers : Drivers World) (session : Session World) (calls : List Call) :
    Session World :=
  calls.foldl (call drivers) session

end Session

end R4OS.Subsystem
