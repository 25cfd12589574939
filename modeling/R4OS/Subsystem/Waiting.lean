import R4OS.Incremental.Checks
import R4OS.Incremental.Runs
import R4OS.Subsystem.Runtime

/-!
# Guest time and waiting

The clock of a guest is exact however often it is brought up to date, and a wait for a time of the
guest neither ends too early nor goes on for more than one tick of rounding.
-/

namespace R4OS.Subsystem

open Incremental Numeric

/-- A guest that waits was not found idle. -/
def Runtime.Sensible (runtime : Runtime) : Prop :=
  runtime.guest_waiting = true → runtime.guest_idle_polling = false

namespace Session

/-- What every step does to the clock, the wait and the start of a runtime. -/
structure Goes {World : Type} (hz : Nat) (before after : Session World) : Prop where
  started : before.runtime.started = true → after.runtime.started = true
  clock : (∃ time, Shows hz before.runtime.clock time) → ∃ time, Shows hz after.runtime.clock time
  sensible : before.runtime.Sensible → after.runtime.Sensible

variable {World : Type} {hz : Nat} {before middle after : Session World}

theorem Goes.refl (session : Session World) : Goes hz session session := ⟨id, id, id⟩

theorem Goes.trans (first : Goes hz before middle) (second : Goes hz middle after) :
    Goes hz before after :=
  ⟨second.started ∘ first.started, second.clock ∘ first.clock, second.sensible ∘ first.sensible⟩

theorem Goes.same (started : after.runtime.started = before.runtime.started)
    (clock : after.runtime.clock = before.runtime.clock)
    (waiting : after.runtime.guest_waiting = before.runtime.guest_waiting)
    (idle : after.runtime.guest_idle_polling = before.runtime.guest_idle_polling) :
    Goes hz before after := by
  refine ⟨?_, ?_, ?_⟩
  · rw [started]
    exact id
  · rw [clock]
    exact id
  · rw [Runtime.Sensible, Runtime.Sensible, waiting, idle]
    exact id

theorem Goes.called (positive : 0 < hz) (call : ClockCall × Nat)
    (clock : after.runtime.clock = before.runtime.clock.call call)
    (started : before.runtime.started = true → after.runtime.started = true)
    (waiting : after.runtime.guest_waiting = before.runtime.guest_waiting)
    (idle : after.runtime.guest_idle_polling = before.runtime.guest_idle_polling) :
    Goes hz before after := by
  refine ⟨started, ?_, ?_⟩
  · rintro ⟨time, shown⟩
    rw [clock]
    exact ⟨_, shown.call positive call⟩
  · rw [Runtime.Sensible, Runtime.Sensible, waiting, idle]
    exact id

theorem Goes.woken (started : after.runtime.started = before.runtime.started)
    (clock : after.runtime.clock = before.runtime.clock)
    (awake : after.runtime.guest_waiting = false) : Goes hz before after := by
  refine ⟨?_, ?_, ?_⟩
  · rw [started]
    exact id
  · rw [clock]
    exact id
  · intro _ waits
    rw [awake] at waits
    cases waits

theorem start_goes (positive : 0 < hz) (session : Session World) (host_tick : Nat) :
    Goes hz session (session.start host_tick) := by
  unfold start
  split
  · exact .refl _
  · exact .called positive (.reset, host_tick) rfl (fun _ => rfl) rfl rfl

theorem fail_goes (session : Session World) (raw : Int) : Goes hz session (session.fail raw) :=
  .same rfl rfl rfl rfl

theorem deliver_goes (session : Session World) (guest : GuestDriver World) :
    Goes hz session (session.deliverAudioFeedback guest) := by
  unfold deliverAudioFeedback
  split
  · split
    · exact .same rfl rfl rfl rfl
    dsimp only
    split
    · exact .woken rfl rfl rfl
    · exact .same rfl rfl rfl rfl
  · exact .refl _

theorem audio_goes (session : Session World) (work : Playing World → Playing World) :
    Goes hz session (session.audio work) :=
  .same rfl rfl rfl rfl

section Guests

variable (drivers : Drivers World)

variable (session : Session World)

include session

theorem checkClose_goes :
    Goes hz session (session.checkClose drivers).2 := by
  unfold checkClose
  split
  · exact .refl _
  · exact .same rfl rfl rfl rfl

theorem takeStep_goes (step : StepResult) :
    Goes hz session (session.takeStep step) := by
  have sensible : (session.takeStep step).runtime.Sensible := by
    unfold takeStep Runtime.Sensible
    cases ended : step.status with
    | progress =>
      intro waits
      exact decide_eq_false fun idle => of_decide_eq_true waits idle.2.2
    | waiting | completed => simp
    | failed => simp [fail]
  have same : (session.takeStep step).runtime.started = session.runtime.started ∧
      (session.takeStep step).runtime.clock = session.runtime.clock := by
    unfold takeStep
    cases step.status with
    | progress | waiting | completed | failed => exact ⟨rfl, rfl⟩
  refine ⟨?_, ?_, fun _ => sensible⟩
  · rw [same.1]
    exact id
  · rw [same.2]
    exact id

theorem stepGuest_goes :
    Goes hz session (session.stepGuest drivers).2 := by
  unfold stepGuest
  dsimp only
  split
  · refine .trans ?_ (takeStep_goes _ _)
    exact .same rfl rfl rfl rfl
  · exact .refl _

theorem presentFrame_goes :
    Goes hz session (session.presentFrame drivers) := by
  unfold presentFrame
  dsimp only
  split
  · split
    · exact .same rfl rfl rfl rfl
    split
    · exact .same rfl rfl rfl rfl
    · exact .same rfl rfl rfl rfl
  · exact .refl _

theorem fillAudio_goes (host_tick : Nat) (guest_stepped : Bool) :
    Goes hz session (session.fillAudio drivers host_tick guest_stepped) := by
  unfold fillAudio
  dsimp only
  split
  · split
    · exact .same rfl rfl rfl rfl
    · exact .same rfl rfl rfl rfl
  · exact .refl _

theorem guestCycle_goes (host_tick : Nat) :
    Goes hz session (session.guestCycle drivers host_tick).2 := by
  have resynced : Goes hz session (if session.runtime.state = .running then
      session.audio fun playing => playing.resyncLate host_tick else session) := by
    split
    · exact audio_goes session _
    · exact .refl _
  have told := resynced.trans (deliver_goes _ drivers.guest)
  exact (told.trans (stepGuest_goes drivers _)).trans (presentFrame_goes drivers _)

end Guests

section Requests

variable [AudioAbi] (drivers : Drivers World)

theorem requestPause_goes (positive : 0 < hz) (session : Session World) (host_tick : Nat) :
    Goes hz session (session.requestPause drivers host_tick) := by
  unfold requestPause
  split
  · exact .called positive (.pause, host_tick) rfl id rfl rfl
  · exact .refl _

theorem requestResume_goes (positive : 0 < hz) (session : Session World) (host_tick : Nat) :
    Goes hz session (session.requestResume drivers host_tick) := by
  unfold requestResume
  split
  · exact .called positive (.resumeAt, host_tick) rfl id rfl rfl
  · exact .refl _

theorem requestReset_goes (positive : 0 < hz) (session : Session World) (host_tick : Nat) :
    Goes hz session (session.requestReset drivers host_tick) := by
  unfold requestReset
  dsimp only
  split
  · exact .same rfl rfl rfl rfl
  · have cleared : Goes hz session
        { session with runtime.clock := session.runtime.clock.reset host_tick } :=
      .called positive (.reset, host_tick) rfl id rfl rfl
    exact cleared.trans (.woken rfl rfl rfl)

theorem request_goes (positive : 0 < hz) (session : Session World) (command : LifecycleCommand)
    (host_tick : Nat) : Goes hz session (session.request drivers command host_tick) := by
  unfold request
  split
  · exact .refl _
  split
  · exact .refl _
  · exact requestPause_goes drivers positive session host_tick
  · exact requestResume_goes drivers positive session host_tick
  · split
    · exact requestResume_goes drivers positive session host_tick
    · exact requestPause_goes drivers positive session host_tick
  · exact requestReset_goes drivers positive session host_tick
  · exact audio_goes session _
  · exact audio_goes session _
  · exact audio_goes session _
  · exact .same rfl rfl rfl rfl

theorem shutdown_goes (session : Session World) : Goes hz session (session.shutdown drivers) := by
  unfold shutdown
  split
  · exact .refl _
  · exact .same rfl rfl rfl rfl

theorem finish_goes (session : Session World) :
    Goes hz session (session.finish drivers).2 := by
  unfold finish
  dsimp only
  split
  · exact (shutdown_goes drivers session).trans (.same rfl rfl rfl rfl)
  · exact shutdown_goes drivers session

theorem pollHost_goes (positive : 0 < hz) (host_tick events : Nat) (session : Session World) :
    Goes hz session (pollHost drivers host_tick events session).2 := by
  induction events generalizing session with
  | zero => exact .refl _
  | succ events induction =>
    have answered : Goes hz session
        { session with world := (drivers.host.poll_fn session.world).2 } := .same rfl rfl rfl rfl
    unfold pollHost
    dsimp only
    split
    · exact answered
    · exact answered.trans (induction _)
    · refine answered.trans (.trans ?_ (induction _))
      exact .woken rfl rfl rfl
    · refine answered.trans (.trans ?_ (induction _))
      exact .same rfl rfl rfl rfl
    · next command _ =>
      have asked := answered.trans (request_goes drivers positive _ command host_tick)
      split
      · exact asked
      · exact asked.trans (induction _)
    · exact answered.trans (fail_goes _ _)

theorem pollCycle_goes (positive : 0 < hz) (session : Session World) (host_tick : Nat) :
    Goes hz session (session.pollCycle drivers host_tick).2 := by
  have synced : Goes hz (session.start host_tick) (session.beginCycle host_tick) :=
    .called positive (.sync, host_tick) rfl id rfl rfl
  have begun := ((start_goes positive session host_tick).trans synced).trans
    (checkClose_goes drivers (session.beginCycle host_tick))
  unfold pollCycle
  dsimp only
  split
  · exact begun.trans (request_goes drivers positive _ .close host_tick)
  · have polled := begun.trans (pollHost_goes drivers positive host_tick
      ((session.beginCycle host_tick).checkClose drivers).2.runtime.config.max_input_events _)
    exact polled.trans (.same rfl rfl rfl rfl)

theorem beforePump_goes (session : Session World) (host_tick : Nat)
    (clock : Option (World → Nat × World)) :
    Goes hz session (session.beforePump drivers host_tick clock) :=
  ((guestCycle_goes drivers session host_tick).trans (audio_goes _ _)).trans
    (fillAudio_goes drivers _ host_tick _)

theorem servePump_goes (session : Session World) (host_tick : Nat)
    (clock : Option (World → Nat × World)) :
    Goes hz session (session.servePump drivers host_tick clock) :=
  (audio_goes session _).trans (deliver_goes _ drivers.guest)

theorem cycleWork_goes (positive : 0 < hz) (session : Session World) (host_tick : Nat)
    (clock : Option (World → Nat × World)) :
    Goes hz session (session.cycleWork drivers host_tick clock).2 := by
  have polled := pollCycle_goes drivers positive session host_tick
  have served := (polled.trans (beforePump_goes drivers _ host_tick clock)).trans
    (servePump_goes drivers _ host_tick clock)
  unfold cycleWork
  dsimp only
  split
  · exact polled.trans (finish_goes drivers _)
  split
  · exact served.trans (finish_goes drivers _)
  · exact served

theorem call_goes (positive : 0 < hz) (session : Session World) (next : Call) :
    Goes hz session (session.call drivers next) := by
  cases next with
  | cycle host_tick live => exact cycleWork_goes drivers positive session host_tick _
  | request command host_tick => exact request_goes drivers positive session command host_tick
  | waitFailed raw => exact fail_goes session raw
  | shutdown => exact shutdown_goes drivers session

/-- In every run the clock shows host time, and a guest that waits was not found idle. -/
theorem run_goes (positive : 0 < hz) (session : Session World) (calls : List Call) :
    Goes hz session (session.run drivers calls) := by
  refine run_keeps (fun after next (goes : Goes hz session after) => ?_) (.refl session) calls
  exact goes.trans (call_goes drivers positive after next)

end Requests

theorem init_shows {config : Config} {monotonic_hz host_tick : Nat} {audio : Option AudioOptions}
    {sink : Option (AudioSink World)} {world : World} {session : Session World}
    (made : init config monotonic_hz host_tick audio sink world = .ok session) :
    session.runtime.clock = { monotonic_hz, last_host_tick := host_tick } ∧
      session.runtime.guest_waiting = false := by
  unfold init at made
  obtain ⟨_, _, made⟩ := bind_eq_ok.mp made
  obtain ⟨_, _, made⟩ := bind_eq_ok.mp made
  obtain ⟨_, _, made⟩ := bind_eq_ok.mp made
  cases made
  exact ⟨rfl, rfl⟩

theorem quantumWait_le (pump : AudioPump) (host_tick wait : Nat) :
    quantumWait pump host_tick wait ≤ wait := by
  unfold quantumWait
  split
  · exact min_le_left _ _
  · exact le_rfl

theorem nextWait_le (session : Session World) (host_tick : Nat)
    (running : session.runtime.state = .running) (waiting : session.runtime.guest_waiting = true)
    (sensible : session.runtime.Sensible) (timed : session.runtime.guest_wake_ns ≠ 0) :
    session.nextWait host_tick ≤
      (session.runtime.clock.sync host_tick).ticksUntil session.runtime.guest_wake_ns := by
  have awake := sensible waiting
  unfold nextWait
  dsimp only
  split
  · exact Nat.zero_le _
  rw [if_neg (by simp [awake])]
  exact (quantumWait_le _ _ _).trans (min_le_right _ _)

end Session

section GuestTime

variable {World : Type} [AudioAbi]

/-- Guest time is exact and waits end in time.  After any calls a clock shows the nanoseconds of the
ticks since the last reset in which it was not paused, those left out that end with a call of
`resumeAt`.  After the ticks until a deadline the guest has reached it, and some ticks earlier it has
not: two where a tick is no less than a nanosecond.  Where a running guest waits for a time of its own,
the wait of the runtime passes it by one tick of rounding at most. -/
theorem guest_time_exact (hz : Nat) (positive : 0 < hz) (host_tick : Nat)
    (calls : List (ClockCall × Nat)) (drivers : Drivers World) (config : Config)
    (audio : Option AudioOptions) (sink : Option (AudioSink World)) (world : World)
    (session : Session World) (made : Session.init config hz host_tick audio sink world = .ok session)
    (steps : List Session.Call) :
    let clock := calls.foldl GuestClock.call { monotonic_hz := hz, last_host_tick := host_tick }
    let time := calls.foldl HostTime.call { now := host_tick }
    let runtime := (session.run drivers steps).runtime
    clock.guest_ns = min (time.counted * nanoseconds_per_second / hz) maxWord ∧
      (∀ (later : List (ClockCall × Nat)) (waited deadline : Nat),
        (later.foldl HostTime.call time).counted = time.counted + waited →
        deadline ≤ maxWord → clock.exactTicksUntil deadline ≤ maxWord →
        (clock.ticksUntil deadline ≤ waited →
          deadline ≤ (later.foldl GuestClock.call clock).guest_ns) ∧
        (waited + (1 + ceilDiv hz nanoseconds_per_second) ≤ clock.ticksUntil deadline →
          (later.foldl GuestClock.call clock).guest_ns < deadline)) ∧
      (runtime.state = .running → runtime.guest_waiting = true → runtime.guest_wake_ns ≠ 0 →
        ∀ tick, ((runtime.clock.sync tick).sync
            (tick + (session.run drivers steps).nextWait tick)).guest_ns ≤
          max (runtime.clock.sync tick).guest_ns
            (runtime.guest_wake_ns + ceilDiv nanoseconds_per_second hz)) := by
  have shown := (shows_init hz host_tick).run positive calls
  refine ⟨shown.guest_ns, ?_, ?_⟩
  · intro later waited deadline counted_eq small fits
    have shows := (shown.run positive later).guest_ns
    rw [ticksUntil_eq, min_eq_left fits, shows, counted_eq]
    exact ⟨shown.reached positive small, shown.unreached positive small⟩
  · intro running waiting timed tick
    obtain ⟨clock_eq, awake⟩ := Session.init_shows made
    have went := Session.run_goes drivers positive session steps
    obtain ⟨time, shows⟩ := went.clock ⟨_, by rw [clock_eq]; exact shows_init hz host_tick⟩
    have sensible := went.sensible fun waits => by simp [awake] at waits
    exact shows.waits positive (Session.nextWait_le _ tick running waiting sensible timed)

end GuestTime

/-- Constants that an audio service may have. -/
@[reducible] def sampleAbi : AudioAbi where
  service_api_result_busy := -2
  service_api_result_invalid := -3
  service_api_result_timeout := -4
  service_api_result_full := -5
  service_api_result_no_endpoint := -6
  service_api_result_not_running := -7
  audio_progress_source_valid := 1
  audio_progress_device_valid := 2
  audio_format_s16le := 1

/-- A guest that waits for 1.5 milliseconds of its time, and a host without events. -/
def patientDrivers : Drivers Unit where
  guest :=
    { step_fn := fun _ _ _ => ({ status := .waiting, wake_guest_ns := 1500000 }, ())
      reset_fn := fun _ => (0, ())
      render_audio_fn := fun _ _ => (0, fun _ => 0, ()) }
  host :=
    { poll_fn := fun _ => (.idle, ())
      present_fn := fun _ => (0, ()) }
  ticks := fun _ => (0, ())

/-- A runtime without audio whose clock counts milliseconds. -/
def patientSession : Session Unit :=
  { pump := {}
    world := ()
    runtime := { config := { max_wait_ticks := 100 }, clock := { monotonic_hz := 1000 } } }

/-- The patient guest is woken within a tick of its time. -/
theorem guest_time_exact_patient :
    let session := @Session.run Unit sampleAbi patientDrivers patientSession [.cycle 0 false]
    let clock := session.runtime.clock
    session.nextWait 0 = 2 ∧
      ((clock.sync 0).sync (0 + session.nextWait 0)).guest_ns ≤ max (clock.sync 0).guest_ns
        (session.runtime.guest_wake_ns + ceilDiv nanoseconds_per_second 1000) :=
  ⟨by decide,
    (@guest_time_exact Unit sampleAbi 1000 (by decide) 0 [] patientDrivers { max_wait_ticks := 100 }
      none none () patientSession rfl [.cycle 0 false]).2.2
      (by decide) (by decide) (by decide) 0⟩

/-- Not every tick that is not paused is counted: ten ticks that end with a resume of a clock that is
not paused are lost.  Two ticks earlier a guest may have reached its deadline where a tick is less than
a nanosecond, and where the ticks do not fit a word it has not reached it after the wait. -/
theorem guest_time_not_exact :
    let resumed := (GuestClock.mk 1000000000 0 0 0 false).call (.resumeAt, 10)
    let fast := (GuestClock.mk 4000000000 0 0 0 false).call (.sync, 3)
    let fresh := GuestClock.mk 4000000000 0 0 0 false
    (HostTime.call { now := 0 } (.resumeAt, 10)).unpaused = 10 ∧ resumed.guest_ns = 0 ∧
      fast.ticksUntil 1 = 4 ∧ (fast.sync (3 + (4 - 2))).guest_ns = 1 ∧
      (fresh.sync (fresh.ticksUntil maxWord)).guest_ns < maxWord := by
  decide

end R4OS.Subsystem
