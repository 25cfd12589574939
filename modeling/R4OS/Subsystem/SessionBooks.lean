import R4OS.Subsystem.CycleBooks
import R4OS.Subsystem.Waiting

/-!
# The books of a runtime

In every run of a runtime the bytes that its sink accepted are a part of those that its guest rendered,
in their order, and every move of PCM is a whole number of frames.  Every byte is counted once, as long
as no receipt reports bytes that were dropped before.
-/

namespace R4OS.Subsystem

open Buffer Incremental Text

theorem AudioPump.init_eq {World : Type} {options : AudioOptions} {sink : Option (AudioSink World)}
    {monotonic_hz : Nat} {pump : AudioPump}
    (made : AudioPump.init options sink monotonic_hz = .ok pump) :
    (sink.all fun sink => !sink.polls || sink.finish_fn.isSome) = true ∧
      ∃ frame_bytes queue, options.config.frameBytes = .ok frame_bytes ∧
        PcmQueue.init options.queue_storage frame_bytes = some queue ∧
        ∃ scratch quantum_ticks busy_retry_ticks open_retry_ticks,
          pump = {
            config := options.config
            queue
            scratch
            state := .ready
            quantum_ticks
            monotonic_hz
            busy_retry_ticks
            open_retry_ticks } := by
  unfold AudioPump.init at made
  obtain ⟨_, finishes, made⟩ := bind_eq_ok.mp made
  obtain ⟨frame_bytes, frame, made⟩ := bind_eq_ok.mp made
  obtain ⟨_, _, made⟩ := bind_eq_ok.mp made
  obtain ⟨_, _, made⟩ := bind_eq_ok.mp made
  obtain ⟨_, _, made⟩ := bind_eq_ok.mp made
  obtain ⟨_, _, made⟩ := bind_eq_ok.mp made
  obtain ⟨_, _, made⟩ := bind_eq_ok.mp made
  obtain ⟨_, _, made⟩ := bind_eq_ok.mp made
  obtain ⟨_, _, made⟩ := bind_eq_ok.mp made
  obtain ⟨_, _, made⟩ := bind_eq_ok.mp made
  obtain ⟨queue, stored, made⟩ := bind_eq_ok.mp made
  refine ⟨?_, frame_bytes, queue, frame, ?_, ?_⟩
  · unfold require at finishes
    split at finishes
    · next holds => exact holds
    · cases finishes
  · cases known : PcmQueue.init options.queue_storage frame_bytes with
    | none =>
      rw [known] at stored
      cases stored
    | some other =>
      rw [known] at stored
      exact congrArg some (Except.ok.inj stored)
  · exact ⟨_, _, _, _, (Except.ok.inj made).symm⟩

theorem Playing.Kept.new {World : Type} {playing : Playing World} (sound : playing.pump.queue.Sound)
    (empty : playing.pump.queue.contents = [])
    (frame : playing.pump.scratch = [] ∨
      playing.pump.config.frameBytes = .ok playing.pump.queue.frame_bytes)
    (stats : playing.pump.stats = {}) (log : playing.log = [])
    (idle : playing.pump.pending_operation = none) : playing.Kept playing.offered := by
  have quiet := Playing.writing_idle idle
  have entries_eq : playing.data.entries = [] := by simp only [Playing.data, log]; rfl
  refine ⟨⟨sound, frame, ⟨?_, ?_, ?_, ?_⟩, ?_⟩, fun now => absurd now quiet,
    fun now => absurd now quiet⟩
  · rw [entries_eq]
    exact congrArg AudioStats.generated_bytes stats
  · rw [entries_eq]
    exact congrArg AudioStats.submitted_bytes stats
  · rw [entries_eq]
    exact congrArg AudioStats.suppressed_bytes stats
  · rw [entries_eq]
    exact congrArg AudioStats.discarded_bytes stats
  · rw [Playing.offered_idle idle]
    have ledger_eq : playing.data.ledger none = ⟨[], none, []⟩ := by
      rw [AudioData.ledger, entries_eq]
      exact congrArg (Ledger.mk · none []) empty
    rw [ledger_eq]
    exact ⟨Nat.dvd_zero _, by simp [WholeUnits], [], rfl, .slnil, by simp⟩

namespace Session

variable {World : Type} {produces loses : Prop} {session before middle after : Session World}

/-- Steps of the books of a runtime. -/
def Steps (produces loses : Prop) (before after : Session World) : Prop :=
  before.toPlaying.Kept before.offered →
    Moves produces loses before.toPlaying before.offered after.toPlaying after.offered

theorem Steps.refl (session : Session World) : Steps produces loses session session :=
  fun kept => kept.refl

theorem Steps.trans (first : Steps produces loses before middle)
    (second : Steps produces loses middle after) : Steps produces loses before after := by
  intro kept
  have moved := first kept
  exact moved.trans (second moved.kept)

theorem Steps.mono {produces' loses' : Prop} (steps : Steps produces loses before after)
    (more : produces → produces') (worse : loses → loses') :
    Steps produces' loses' before after :=
  fun kept => (steps kept).mono more worse

theorem Steps.still (same : Still before.toPlaying after.toPlaying) :
    Steps produces loses before after :=
  fun kept => (kept.still same).offered

theorem Steps.world (pump : after.pump = before.pump)
    (entries : entries after.log = entries before.log) : Steps produces loses before after := by
  refine .still ⟨?_, fun now => ?_, fun now => ?_⟩
  · simp [Playing.data, pump, entries]
  · rwa [Playing.Writing, pump]
  · rw [Playing.Writing, pump] at now
    exact ⟨now, congrArg AudioPump.pending_bytes pump, by rw [pump]; exact id⟩

theorem fail_steps (session : Session World) (raw : Int) :
    Steps produces loses session (session.fail raw) :=
  .world rfl rfl

theorem deliver_steps (session : Session World) (guest : GuestDriver World) :
    Steps produces loses session (session.deliverAudioFeedback guest) := by
  unfold deliverAudioFeedback
  split
  · split
    · exact .world rfl (entries_feedback _ _)
    dsimp only
    split
    · exact .world rfl (entries_feedback _ _)
    · exact .world rfl (entries_feedback _ _)
  · exact .refl session

theorem beginCycle_start (session : Session World) (host_tick : Nat) :
    (session.start host_tick).beginCycle host_tick = session.beginCycle host_tick := by
  have same : (session.start host_tick).start host_tick = session.start host_tick := by
    by_cases started : session.runtime.started = true
    · simp [start, if_pos started]
    · simp [start, if_neg started]
  rw [beginCycle, beginCycle, same]

section Guests

variable (drivers : Drivers World)

/-- A guest rendered nothing before the start. -/
def Fresh (session : Session World) : Prop :=
  session.runtime.started = false → producedItems (entries session.log) = []

theorem start_steps (fresh : session.Fresh) (host_tick : Nat) :
    Steps produces loses session (session.start host_tick) := by
  intro kept
  unfold start
  split
  · exact kept.refl
  next new =>
  obtain ⟨past, split, -⟩ := kept.data.ordered.ordered
  have nothing : past ++ session.pump.queue.contents = [] :=
    split.symm.trans (fresh (Bool.eq_false_iff.mpr new))
  exact kept.start (List.append_eq_nil_iff.mp nothing).2

theorem beginCycle_steps (fresh : session.Fresh) (host_tick : Nat) :
    Steps produces loses session (session.beginCycle host_tick) := by
  have begun : Steps produces loses session (session.start host_tick) := start_steps fresh host_tick
  refine begun.trans (.still ⟨rfl, id, fun now => ⟨now, rfl, id⟩⟩)

theorem checkClose_steps (session : Session World) :
    Steps produces loses session (session.checkClose drivers).2 := by
  unfold checkClose
  split
  · exact .refl session
  · exact .world rfl rfl

theorem takeStep_steps (session : Session World) (step : StepResult) :
    Steps produces loses session (session.takeStep step) := by
  unfold takeStep
  cases step.status with
  | progress | waiting | completed | failed => exact .world rfl rfl

theorem stepGuest_steps (session : Session World) :
    Steps produces loses session (session.stepGuest drivers).2 := by
  unfold stepGuest
  dsimp only
  split
  · refine .trans ?_ (takeStep_steps _ _)
    exact .world rfl rfl
  · exact .refl session

theorem presentFrame_steps (session : Session World) :
    Steps produces loses session (session.presentFrame drivers) := by
  unfold presentFrame
  dsimp only
  split
  · split
    · exact .world rfl rfl
    split
    · exact .world rfl rfl
    · exact .world rfl rfl
  · exact .refl session

theorem guestCycle_steps (session : Session World) (host_tick : Nat) :
    Steps produces loses session (session.guestCycle drivers host_tick).2 := by
  have resynced : Steps produces loses session (if session.runtime.state = .running then
      session.audio fun playing => playing.resyncLate host_tick else session) := by
    split
    · exact fun kept => kept.resyncLate host_tick
    · exact .refl session
  have told := resynced.trans (deliver_steps _ drivers.guest)
  exact (told.trans (stepGuest_steps drivers _)).trans (presentFrame_steps drivers _)

theorem fillAudio_steps (session : Session World) (host_tick : Nat) (guest_stepped : Bool) :
    Steps True loses session (session.fillAudio drivers host_tick guest_stepped) := by
  unfold fillAudio
  dsimp only
  split
  · have filled : Steps True loses session { session with
        toPlaying := (session.toPlaying.fill drivers.guest host_tick guest_stepped).2 } :=
      fun kept => kept.fill drivers.guest host_tick guest_stepped
    split
    · exact filled.trans (fail_steps _ _)
    · exact filled
  · exact .refl session

end Guests

/-- What every state of a runtime keeps. -/
structure Keeps (session : Session World) : Prop where
  books : session.toPlaying.Kept session.offered
  fresh : session.Fresh

theorem init_keeps {config : Config} {monotonic_hz host_tick : Nat} {audio : Option AudioOptions}
    {sink : Option (AudioSink World)} {world : World} {session : Session World}
    (made : init config monotonic_hz host_tick audio sink world = .ok session) :
    session.Keeps ∧ session.log = [] := by
  unfold init at made
  obtain ⟨_, _, made⟩ := bind_eq_ok.mp made
  obtain ⟨_, _, made⟩ := bind_eq_ok.mp made
  obtain ⟨pump, opened, made⟩ := bind_eq_ok.mp made
  cases made
  refine ⟨⟨?_, fun _ => rfl⟩, rfl⟩
  cases audio with
  | none =>
    cases opened
    exact .new ⟨by simp, le_rfl⟩ rfl (.inl rfl) rfl rfl rfl
  | some options =>
    obtain ⟨-, frame_bytes, queue, frame, stored, _, _, _, _, rfl⟩ := AudioPump.init_eq opened
    obtain ⟨sound, empty, unit, -⟩ := PcmQueue.init_sound stored
    exact .new sound empty (.inr (unit ▸ frame)) rfl rfl rfl

theorem init_balanced {config : Config} {monotonic_hz host_tick : Nat} {audio : Option AudioOptions}
    {sink : Option (AudioSink World)} {world : World} {session : Session World}
    (made : init config monotonic_hz host_tick audio sink world = .ok session) :
    (session.data.ledger session.offered).Balanced := by
  obtain ⟨keeps, log⟩ := init_keeps made
  obtain ⟨past, split, -⟩ := keeps.books.data.ordered.ordered
  have entries_eq : session.data.entries = [] := by simp only [Playing.data, log]; rfl
  rw [AudioData.ledger, entries_eq] at split ⊢
  have nothing : past ++ session.data.queue.contents = [] := split.symm
  rw [(List.append_eq_nil_iff.mp nothing).2]
  rfl

section Requests

variable [AudioAbi] (drivers : Drivers World)

theorem requestPause_steps (session : Session World) (host_tick : Nat) :
    Steps produces loses session (session.requestPause drivers host_tick) := by
  unfold requestPause
  split
  · exact fun kept => (kept.pause drivers.sink).offered
  · exact .refl session

theorem requestResume_steps (session : Session World) (host_tick : Nat) :
    Steps produces loses session (session.requestResume drivers host_tick) := by
  unfold requestResume
  split
  · exact fun kept => (kept.resumePlayback drivers.sink host_tick).offered
  · exact .refl session

theorem restart_steps (session : Session World) (host_tick : Nat) :
    Steps produces loses session (session.restart drivers host_tick) := by
  have started : Steps produces loses session
      ({ session with runtime.clock := session.runtime.clock.reset host_tick }.audio
        fun playing => playing.reset drivers.sink host_tick) :=
    fun kept => (kept.reset drivers.sink host_tick).offered
  exact started.trans (.world rfl (entries_reset _))

theorem requestReset_steps (session : Session World) (host_tick : Nat) :
    Steps produces loses session (session.requestReset drivers host_tick) := by
  have asked : Steps produces loses session { session with
      pump.retire_pending_feedback := decide (session.pump.pending_operation ≠ none)
      world := (drivers.guest.reset_fn session.world).2 } :=
    .still ⟨rfl, id, fun now => ⟨now, rfl, id⟩⟩
  unfold requestReset
  dsimp only
  split
  · exact asked.trans (fail_steps _ _)
  · exact asked.trans (restart_steps drivers _ host_tick)

theorem setMuted_steps (session : Session World) (muted : Bool) (host_tick : Nat) :
    Steps produces loses session
      (session.audio fun playing => playing.setMuted drivers.sink muted host_tick) :=
  fun kept => (kept.setMuted drivers.sink muted host_tick).offered

theorem request_steps (session : Session World) (command : LifecycleCommand) (host_tick : Nat) :
    Steps produces loses session (session.request drivers command host_tick) := by
  unfold request
  split
  · exact .refl session
  split
  · exact .refl session
  · exact requestPause_steps drivers session host_tick
  · exact requestResume_steps drivers session host_tick
  · split
    · exact requestResume_steps drivers session host_tick
    · exact requestPause_steps drivers session host_tick
  · exact requestReset_steps drivers session host_tick
  · exact setMuted_steps drivers session true host_tick
  · exact setMuted_steps drivers session false host_tick
  · exact setMuted_steps drivers session (!session.pump.muted) host_tick
  · exact .world rfl rfl

/-- The shutdown meets a receipt that loses bytes. -/
def ShutdownLoses (session : Session World) : Prop :=
  session.runtime.resources_closed = false ∧ session.pump.state ≠ .closed ∧
    session.pump.state ≠ .disabled ∧ session.FinishLoses drivers.sink

/-- The cycle meets a receipt that loses bytes: when it polls the sink, or at its end. -/
def CycleLoses (session : Session World) (host_tick : Nat) (clock : Option (World → Nat × World)) :
    Prop :=
  let polled := session.pollCycle drivers host_tick
  if polled.1 then ShutdownLoses drivers polled.2
  else
    (polled.2.guestCycle drivers host_tick).2.PollLoses drivers.sink ∨
      ShutdownLoses drivers
        ((polled.2.beforePump drivers host_tick clock).servePump drivers host_tick clock)

/-- A call meets a receipt that loses bytes. -/
def CallLoses (session : Session World) : Call → Prop
  | .cycle host_tick live =>
    CycleLoses drivers session host_tick (if live then some drivers.ticks else none)
  | .request _ _ => False
  | .waitFailed _ => False
  | .shutdown => ShutdownLoses drivers session

instance (pump : AudioPump) (completion : Completion) :
    Decidable (Playing.LosesBytes pump completion) :=
  inferInstanceAs (Decidable (_ ∧ _ ∧ (_ ∨ _)))

instance (session : Session World) : Decidable (ShutdownLoses drivers session) :=
  inferInstanceAs (Decidable (_ ∧ _ ∧ _ ∧ ∃ completion ∈ session.finished drivers.sink,
    Playing.LosesBytes session.pump completion))

instance (session : Session World) (host_tick : Nat) (clock : Option (World → Nat × World)) :
    Decidable (CycleLoses drivers session host_tick clock) :=
  inferInstanceAs (Decidable (if (session.pollCycle drivers host_tick).1 then _ else
    (∃ completion ∈ ((session.pollCycle drivers host_tick).2.guestCycle drivers host_tick).2.polled
      drivers.sink, Playing.LosesBytes _ completion) ∨ _))

instance (session : Session World) (next : Call) : Decidable (CallLoses drivers session next) :=
  match next with
  | .cycle host_tick live =>
    inferInstanceAs (Decidable (CycleLoses drivers session host_tick (if live then _ else _)))
  | .request _ _ => .isFalse id
  | .waitFailed _ => .isFalse id
  | .shutdown => inferInstanceAs (Decidable (ShutdownLoses drivers session))

theorem shutdown_steps (session : Session World) :
    Steps produces (ShutdownLoses drivers session) session (session.shutdown drivers) := by
  unfold shutdown
  split
  · exact .refl session
  next still_open =>
  by_cases ended : session.pump.state = .closed ∨ session.pump.state = .disabled
  · have same : session.audio (Playing.close drivers.sink) = session := by
      rw [audio, Playing.close, if_pos ended]
    rw [same]
    exact .world rfl rfl
  · have closed : Steps produces (session.FinishLoses drivers.sink) session
        (session.audio (Playing.close drivers.sink)) := fun kept => kept.close drivers.sink
    refine (closed.trans (.world rfl rfl)).mono id fun lost => ?_
    exact ⟨Bool.eq_false_iff.mpr still_open, (not_or.mp ended).1, (not_or.mp ended).2, lost⟩

theorem finish_steps (session : Session World) :
    Steps produces (ShutdownLoses drivers session) session (session.finish drivers).2 := by
  unfold finish
  dsimp only
  split
  · exact (shutdown_steps drivers session).trans (.world rfl rfl)
  · exact shutdown_steps drivers session

theorem pollHost_steps (host_tick : Nat) (events : Nat) (session : Session World) :
    Steps produces loses session (pollHost drivers host_tick events session).2 := by
  induction events generalizing session with
  | zero => exact .refl session
  | succ events induction =>
    have answered : Steps produces loses session
        { session with world := (drivers.host.poll_fn session.world).2 } := .world rfl rfl
    unfold pollHost
    dsimp only
    split
    · exact answered
    · exact answered.trans (induction _)
    · refine answered.trans (.trans ?_ (induction _))
      exact .world rfl rfl
    · refine answered.trans (.trans ?_ (induction _))
      exact .world rfl rfl
    · next command _ =>
      split
      · exact answered.trans (request_steps drivers _ command host_tick)
      · exact answered.trans (.trans (request_steps drivers _ command host_tick) (induction _))
    · exact answered.trans (fail_steps _ _)

theorem pollCycle_steps (fresh : session.Fresh) (host_tick : Nat) :
    Steps produces loses session (session.pollCycle drivers host_tick).2 := by
  have begun : Steps produces loses session
      ((session.beginCycle host_tick).checkClose drivers).2 :=
    (beginCycle_steps fresh host_tick).trans (checkClose_steps drivers _)
  unfold pollCycle
  dsimp only
  split
  · exact begun.trans (request_steps drivers _ .close host_tick)
  · have polled := begun.trans (pollHost_steps drivers host_tick
      ((session.beginCycle host_tick).checkClose drivers).2.runtime.config.max_input_events _)
    exact polled.trans (.world rfl rfl)

theorem beforePump_steps (session : Session World) (host_tick : Nat)
    (clock : Option (World → Nat × World)) :
    Steps True ((session.guestCycle drivers host_tick).2.PollLoses drivers.sink) session
      (session.beforePump drivers host_tick clock) := by
  have polled : Steps True ((session.guestCycle drivers host_tick).2.PollLoses drivers.sink)
      (session.guestCycle drivers host_tick).2
      ((session.guestCycle drivers host_tick).2.audio fun playing =>
        playing.pollPending drivers.sink host_tick clock) :=
    fun kept => kept.pollPending drivers.sink host_tick clock
  exact ((guestCycle_steps drivers session host_tick).trans polled).trans
    (fillAudio_steps drivers _ host_tick _)

theorem servePump_steps (session : Session World) (host_tick : Nat)
    (clock : Option (World → Nat × World)) :
    Steps produces loses session (session.servePump drivers host_tick clock) := by
  have served : Steps produces loses session (session.audio fun playing =>
      playing.pumpReady drivers.sink host_tick (decide (session.runtime.state = .running)) clock) :=
    fun kept => kept.pumpReady drivers.sink host_tick _ clock
  exact served.trans (deliver_steps _ drivers.guest)

theorem cycleWork_steps (fresh : session.Fresh) (host_tick : Nat)
    (clock : Option (World → Nat × World)) :
    Steps True (CycleLoses drivers session host_tick clock) session
      (session.cycleWork drivers host_tick clock).2 := by
  unfold cycleWork
  dsimp only
  split
  · next ended =>
    have polled : Steps True (CycleLoses drivers session host_tick clock) session
        (session.pollCycle drivers host_tick).2 := pollCycle_steps drivers fresh host_tick
    refine polled.trans ((finish_steps drivers _).mono id fun lost => ?_)
    rw [CycleLoses, if_pos ended]
    exact lost
  · next ended =>
    have loses_eq : CycleLoses drivers session host_tick clock =
        (((session.pollCycle drivers host_tick).2.guestCycle drivers host_tick).2.PollLoses
            drivers.sink ∨
          ShutdownLoses drivers (((session.pollCycle drivers host_tick).2.beforePump drivers
            host_tick clock).servePump drivers host_tick clock)) :=
      if_neg ended
    have polled : Steps True (CycleLoses drivers session host_tick clock) session
        (session.pollCycle drivers host_tick).2 := pollCycle_steps drivers fresh host_tick
    have pumped := polled.trans ((beforePump_steps drivers _ host_tick clock).mono id fun lost =>
      loses_eq ▸ Or.inl lost)
    have served := pumped.trans (servePump_steps drivers _ host_tick clock)
    split
    · refine served.trans ((finish_steps drivers _).mono id fun lost => ?_)
      exact loses_eq ▸ Or.inr lost
    · exact served

theorem call_steps (fresh : session.Fresh) (next : Call) :
    Steps True (CallLoses drivers session next) session (session.call drivers next) := by
  cases next with
  | cycle host_tick live => exact cycleWork_steps drivers fresh host_tick _
  | request command host_tick => exact request_steps drivers session command host_tick
  | waitFailed raw => exact fail_steps session raw
  | shutdown => exact shutdown_steps drivers session

theorem cycleWork_started (session : Session World) (host_tick : Nat)
    (clock : Option (World → Nat × World)) :
    (session.cycleWork drivers host_tick clock).2.runtime.started = true := by
  have same : session.cycleWork drivers host_tick clock =
      (session.start host_tick).cycleWork drivers host_tick clock := by
    rw [cycleWork, cycleWork, pollCycle, pollCycle, beginCycle_start]
  have begun : (session.start host_tick).runtime.started = true := by
    unfold start
    split
    · next started => exact started
    · rfl
  rw [same]
  exact (cycleWork_goes drivers Nat.one_pos _ host_tick clock).started begun

theorem Keeps.call {session : Session World} (keeps : session.Keeps) (next : Call) :
    (session.call drivers next).Keeps := by
  refine ⟨(call_steps drivers keeps.fresh next keeps.books).kept, fun new => ?_⟩
  have unstarted : session.runtime.started = false := by
    refine Bool.eq_false_iff.mpr fun started => ?_
    rw [(call_goes drivers Nat.one_pos session next).started started] at new
    cases new
  have silent : ∀ {after}, Steps False True session after →
      producedItems (entries after.log) = [] := fun steps =>
    ((steps keeps.books).path.silent id).trans (keeps.fresh unstarted)
  cases next with
  | cycle host_tick live =>
    rw [Session.call, cycleWork_started drivers session host_tick] at new
    cases new
  | request command host_tick => exact silent (request_steps drivers session command host_tick)
  | waitFailed raw => exact silent (fail_steps session raw)
  | shutdown => exact silent ((shutdown_steps drivers session).mono id fun _ => trivial)

theorem run_keeps_books (keeps : session.Keeps) (calls : List Call) :
    (session.run drivers calls).Keeps ∧
      (session.run drivers calls).pump.queue.frame_bytes = session.pump.queue.frame_bytes := by
  have step : ∀ (after : Session World) (next : Call),
      after.Keeps ∧ after.pump.queue.frame_bytes = session.pump.queue.frame_bytes →
      (after.call drivers next).Keeps ∧
        (after.call drivers next).pump.queue.frame_bytes = session.pump.queue.frame_bytes :=
    fun after next kept => ⟨kept.1.call drivers next,
      (call_steps drivers kept.1.fresh next kept.1.books).frame.trans kept.2⟩
  exact run_keeps step ⟨keeps, rfl⟩ calls

/-- Every byte is counted once in every run whose receipts lose no bytes. -/
theorem run_balanced (keeps : session.Keeps)
    (balanced : (session.data.ledger session.offered).Balanced) {calls : List Call}
    (safe : AllowedRun (call drivers) (fun state next => ¬ CallLoses drivers state next) session
      calls) :
    ((session.run drivers calls).data.ledger (session.run drivers calls).offered).Balanced := by
  have step : ∀ (after : Session World) (next : Call),
      after.Keeps ∧ (after.data.ledger after.offered).Balanced → ¬ CallLoses drivers after next →
      (after.call drivers next).Keeps ∧
        ((after.call drivers next).data.ledger (after.call drivers next).offered).Balanced :=
    fun after next kept safe => ⟨kept.1.call drivers next,
      (call_steps drivers kept.1.fresh next kept.1.books).path.balanced safe kept.2⟩
  exact (safe.keeps step ⟨keeps, balanced⟩).2

end Requests

end Session

section Accounts

variable {World : Type} [AudioAbi]

/-- In every run the counters are the sums of the moves of PCM, the accepted bytes are a part of the
rendered ones in their order, and every move is a whole number of frames.  Every rendered byte is
submitted, suppressed, discarded or still queued, and only one of these, in every run in which no
receipt loses bytes: no receipt of accepted bytes comes with a progress that is refused, or after the
pump was closed. -/
theorem pcm_accounted (drivers : Drivers World) (config : Config) (monotonic_hz host_tick : Nat)
    (audio : Option AudioOptions) (world : World) (session : Session World)
    (made : Session.init config monotonic_hz host_tick audio drivers.sink world = .ok session)
    (calls : List Session.Call) :
    let after := session.run drivers calls
    let moved := entries after.log
    after.data.Counted ∧ (acceptedItems moved).Sublist (producedItems moved) ∧
      WholeUnits moved session.pump.queue.frame_bytes ∧
      (AllowedRun (Session.call drivers)
          (fun state next => ¬ Session.CallLoses drivers state next) session calls →
        (producedItems moved).length = (acceptedItems moved).length + suppressedCount moved +
            discardedCount moved + after.pump.queue.available ∧
          after.pump.stats.generated_bytes = after.pump.stats.submitted_bytes +
            after.pump.stats.suppressed_bytes + after.pump.stats.discarded_bytes +
            .ofNat after.pump.queue.available) := by
  have keeps := (Session.init_keeps made).1
  obtain ⟨kept, frame⟩ := Session.run_keeps_books drivers keeps calls
  have counted := kept.books.data.counted
  have length_eq : (session.run drivers calls).pump.queue.contents.length =
      (session.run drivers calls).pump.queue.available := kept.books.data.sound.contents_length
  obtain ⟨-, whole, past, split, accepted, -⟩ := kept.books.data.ordered
  refine ⟨counted, ?_, frame ▸ whole, fun safe => ?_⟩
  · have parts : producedItems (entries (session.run drivers calls).log) =
        past ++ (session.run drivers calls).pump.queue.contents := split
    rw [parts]
    exact accepted.trans (List.sublist_append_left _ _)
  · have balanced := Session.run_balanced drivers keeps (Session.init_balanced made) safe
    have total : (producedItems (entries (session.run drivers calls).log)).length =
        (acceptedItems (entries (session.run drivers calls).log)).length +
          suppressedCount (entries (session.run drivers calls).log) +
          discardedCount (entries (session.run drivers calls).log) +
          (session.run drivers calls).pump.queue.available := by
      rw [← length_eq]
      exact balanced
    refine ⟨total, ?_⟩
    have generated := counted.generated
    have submitted := counted.submitted
    have suppressed := counted.suppressed
    have discarded := counted.discarded
    simp only [Playing.data] at generated submitted suppressed discarded
    rw [generated, submitted, suppressed, discarded, total]
    simp

end Accounts

section Straying

local instance strayingAbi : AudioAbi := sampleAbi

/-- A sink that opens at once and answers a write later; the receipt of a frame comes with a progress of
a stream without a rate. -/
def strayingSink : AudioSink Unit where
  open_fn := fun _ _ => (0, ())
  write_fn := fun _ _ => (transport_pending, ())
  close_fn := fun _ => (0, ())
  poll_fn := some fun _ =>
    (some {
      operation := .write
      request_id := 1
      generation := 0
      result := 4
      progress := some { progress := { flags := 1, stream_generation := 1 } } }, ())
  finish_fn := some fun _ => ({}, ())

/-- A guest that renders the same sample without end. -/
def strayingDrivers : Drivers Unit where
  guest :=
    { step_fn := fun _ _ _ => ({}, ())
      reset_fn := fun _ => (0, ())
      render_audio_fn := fun _ bytes => (bytes.length, fun _ => 1, ()) }
  host :=
    { poll_fn := fun _ => (.idle, ())
      present_fn := fun _ => (0, ()) }
  sink := some strayingSink
  ticks := fun _ => (0, ())

/-- Buffers for one frame. -/
def strayingAudio : AudioOptions where
  config := { quantum_frames := 1, target_quanta := 1 }
  queue_storage := [0, 0, 0, 0]
  scratch := [0, 0, 0, 0]

def strayingSession : Session Unit where
  pump :=
    { config := strayingAudio.config
      queue := { storage := [0, 0, 0, 0], frame_bytes := 4 }
      scratch := [0, 0, 0, 0]
      state := .ready
      monotonic_hz := 1000
      busy_retry_ticks := 10
      open_retry_ticks := 50 }
  world := ()
  runtime := { config := { max_wait_ticks := 100 }, clock := { monotonic_hz := 1000 } }

theorem straying_init :
    Session.init { max_wait_ticks := 100 } 1000 0 (some strayingAudio) strayingDrivers.sink () =
      .ok strayingSession := by
  have quantum_ticks : durationToTicks 20834 1000 = .ok 1 := by decide
  have busy_retry_ticks : durationToTicks 10000000 1000 = .ok 10 := by decide
  have open_retry_ticks : durationToTicks 50000000 1000 = .ok 50 := by decide
  simp [Session.init, strayingAudio, AudioPump.init, require, AudioConfig.quantumBytes,
    AudioConfig.frameBytes, AudioConfig.targetBytes, mulChecked, maxWord, bind, Except.bind,
    nanoseconds_per_second, quantum_ticks, busy_retry_ticks, open_retry_ticks,
    audio_open_retry_nanoseconds, strayingDrivers, strayingSession, PcmQueue.init, Option.elim, pure,
    Except.pure, AudioSink.polls, strayingSink]

/-- Up to the write the frame is accounted for. -/
theorem pcm_accounted_straying :
    let after := strayingSession.run strayingDrivers [.cycle 0 false, .cycle 1 false]
    after.offered = some [1, 1, 1, 1] ∧
      after.pump.stats.generated_bytes = after.pump.stats.submitted_bytes +
        after.pump.stats.suppressed_bytes + after.pump.stats.discarded_bytes +
        .ofNat after.pump.queue.available :=
  ⟨by decide +kernel,
    ((pcm_accounted strayingDrivers { max_wait_ticks := 100 } 1000 0 (some strayingAudio) ()
      strayingSession straying_init [.cycle 0 false, .cycle 1 false]).2.2.2
      (by decide +kernel)).2⟩

/-- The frame is counted twice when its receipt comes with a progress that is refused. -/
theorem pcm_counted_twice :
    let after := strayingSession.run strayingDrivers
      [.cycle 0 false, .cycle 1 false, .cycle 2 false]
    Session.init { max_wait_ticks := 100 } 1000 0 (some strayingAudio) strayingDrivers.sink () =
        .ok strayingSession ∧
      after.pump.stats.generated_bytes = 4 ∧ after.pump.stats.submitted_bytes = 4 ∧
      after.pump.stats.discarded_bytes = 4 ∧ after.pump.queue.available = 0 ∧
      after.pump.stats.generated_bytes ≠ after.pump.stats.submitted_bytes +
        after.pump.stats.suppressed_bytes + after.pump.stats.discarded_bytes +
        .ofNat after.pump.queue.available :=
  ⟨straying_init, by decide +kernel⟩

end Straying

end R4OS.Subsystem
