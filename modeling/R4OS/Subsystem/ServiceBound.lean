import R4OS.Subsystem.SessionBooks

/-!
# Operations of the sink in a cycle

A pump starts at most one operation of its sink in a cycle, unless it closes the sink again that it
closed in vain in the same cycle, or it is shut down after an operation.
-/

namespace R4OS.Subsystem

open Incremental

/-- A sink that answers every operation at once and has no end of its own. -/
def Immediate {World : Type} (sink : Option (AudioSink World)) : Prop :=
  ∃ device ∈ sink, device.finish_fn = none ∧ device.polls = false

/-- At most one operation in any cycle so far.  When the operations were closings, none is left to
close. -/
structure Bounded (closings : Prop) (pump : AudioPump) : Prop where
  cycle : pump.service_operations_cycle ≤ 1
  maximum : pump.stats.maximum_service_operations_per_cycle ≤ 1
  closed : closings → pump.service_operations_cycle ≠ 0 → pump.sink_open = false

/-- Steps that keep the bound. -/
def Serves {World : Type} (closings : Prop) (before after : Playing World) : Prop :=
  Bounded closings before.pump → Bounded closings after.pump

/-- Steps without an operation that do not open the sink. -/
structure Rests {World : Type} (before after : Playing World) : Prop where
  cycle : after.pump.service_operations_cycle = before.pump.service_operations_cycle
  maximum : after.pump.stats.maximum_service_operations_per_cycle =
    before.pump.stats.maximum_service_operations_per_cycle
  closed : before.pump.sink_open = false → after.pump.sink_open = false

section Rules

variable {World : Type} {closings : Prop} {before middle after : Playing World} {pump : AudioPump}

theorem Bounded.weaken (bounded : Bounded closings pump) : Bounded False pump :=
  ⟨bounded.cycle, bounded.maximum, False.elim⟩

theorem Serves.refl (playing : Playing World) : Serves closings playing playing := id

theorem Serves.trans (first : Serves closings before middle) (second : Serves closings middle after) :
    Serves closings before after :=
  second ∘ first

theorem Rests.refl (playing : Playing World) : Rests playing playing := ⟨rfl, rfl, id⟩

theorem Rests.trans (first : Rests before middle) (second : Rests middle after) :
    Rests before after :=
  ⟨second.cycle.trans first.cycle, second.maximum.trans first.maximum,
    second.closed ∘ first.closed⟩

theorem Rests.serves (rests : Rests before after) : Serves closings before after := by
  intro bounded
  refine ⟨rests.cycle ▸ bounded.cycle, rests.maximum ▸ bounded.maximum, fun closes some_operation => ?_⟩
  rw [rests.cycle] at some_operation
  exact rests.closed (bounded.closed closes some_operation)

theorem Serves.first (none_before : before.pump.service_operations_cycle = 0)
    (cycle : after.pump.service_operations_cycle =
      before.pump.noteServiceOperation.service_operations_cycle)
    (maximum : after.pump.stats.maximum_service_operations_per_cycle =
      before.pump.noteServiceOperation.stats.maximum_service_operations_per_cycle)
    (closed : closings → after.pump.sink_open = false) : Serves closings before after := by
  intro bounded
  simp only [AudioPump.noteServiceOperation, none_before] at cycle maximum
  refine ⟨by rw [cycle]; decide, ?_, fun closes _ => closed closes⟩
  rw [maximum]
  exact max_le bounded.maximum (by decide)

end Rules

namespace Playing

variable {World : Type} {closings : Prop}

variable (playing : Playing World)

theorem discardQueue_rests :
    Rests playing playing.discardQueue :=
  ⟨rfl, rfl, id⟩

theorem degrade_rests (error_code : Int) :
    Rests playing (playing.degrade error_code) := by
  have wanted : Rests playing playing.wantClose := by
    unfold wantClose
    split
    · exact ⟨rfl, rfl, id⟩
    · exact .refl _
  have dropped : Rests playing.wantClose playing.wantClose.dropWaiting := by
    unfold dropWaiting
    split
    · exact ⟨rfl, rfl, id⟩
    · exact discardQueue_rests _
  exact (wanted.trans dropped).trans ⟨rfl, rfl, id⟩

theorem becomeReady_rests :
    Rests playing playing.becomeReady := by
  unfold becomeReady
  split
  · exact ⟨rfl, rfl, id⟩
  · exact .refl _

section Receipts

variable (sink : Option (AudioSink World))

theorem takeAccepted_rests (playing : Playing World) (accepted : Nat) :
    Rests playing (playing.takeAccepted sink accepted) := by
  unfold takeAccepted noteAccepted
  dsimp only
  split
  · exact ⟨rfl, rfl, id⟩
  · split
    · exact ⟨rfl, rfl, id⟩
    · exact ⟨rfl, rfl, id⟩

theorem settleWrite_rests (result : SubmitResult) (now : Nat) :
    Rests playing { playing with pump := settleWrite playing.pump result now } := by
  unfold settleWrite
  split
  · split
    · exact ⟨rfl, rfl, id⟩
    · exact ⟨rfl, rfl, id⟩
  · exact ⟨rfl, rfl, id⟩
  · exact .refl _
  · exact .refl _

end Receipts

section Sinks

variable [AudioAbi] (sink : Option (AudioSink World))

variable {playing : Playing World}

theorem completeClose_rests (playing : Playing World) (rc : Int) :
    Rests playing (playing.completeClose sink rc) := by
  unfold completeClose
  split
  · dsimp only
    split
    · exact ⟨rfl, rfl, id⟩
    · exact ⟨rfl, rfl, id⟩
  · by_cases failed : rc < 0
    · simp only [if_pos failed]
      exact ⟨rfl, rfl, fun _ => rfl⟩
    · simp only [if_neg failed]
      exact ⟨rfl, rfl, fun _ => rfl⟩

theorem completeClose_closed (immediate : Immediate sink) (rc : Int) :
    (playing.completeClose sink rc).pump.sink_open = false := by
  obtain ⟨device, member, -, silent⟩ := immediate
  obtain rfl := Option.mem_def.mp member
  unfold completeClose
  rw [if_neg fun polls => by simp [silent] at polls]

theorem closeSink_serves (immediate : closings → Immediate sink)
    (first : playing.pump.pending_operation = none → playing.pump.sink_open = true →
      playing.pump.service_operations_cycle = 0) :
    Serves closings playing (playing.closeSink sink) := by
  unfold closeSink
  split
  · exact Rests.serves ⟨rfl, rfl, id⟩
  next idle =>
  split
  · exact Rests.serves ⟨rfl, rfl, id⟩
  next still_open =>
  have none_before := first (not_not.mp idle) (Bool.eq_true_of_not_eq_false still_open)
  split
  · exact Rests.serves ⟨rfl, rfl, fun _ => rfl⟩
  · next device =>
    dsimp only
    split
    · next pends =>
      refine .first none_before rfl rfl fun closes => ?_
      obtain ⟨other, member, -, silent⟩ := immediate closes
      cases member
      rw [silent] at pends
      cases pends.2
    · have rests := completeClose_rests (some device)
        { playing with
          pump := playing.pump.noteServiceOperation
          world := (device.close_fn playing.world).2 } (device.close_fn playing.world).1
      exact .first none_before rests.cycle rests.maximum fun closes =>
        completeClose_closed (some device) (immediate closes) _

theorem closeIdle_serves (immediate : closings → Immediate sink) (playing : Playing World) :
    Serves closings playing (playing.closeIdle sink) := by
  unfold closeIdle
  split
  · split
    · next none_before => exact closeSink_serves sink immediate fun _ _ => none_before
    · exact Rests.serves ⟨rfl, rfl, id⟩
  · exact .refl _

theorem enterIdle_serves (immediate : closings → Immediate sink) (playing : Playing World) :
    Serves closings playing (playing.enterIdle sink) := by
  have stops : ∀ stopped : Playing World, Rests playing stopped →
      Serves closings playing (stopped.closeIdle sink).becomeReady := by
    intro stopped rests
    have ready := becomeReady_rests (stopped.closeIdle sink)
    exact (rests.serves.trans (closeIdle_serves sink immediate stopped)).trans ready.serves
  unfold enterIdle
  dsimp only
  split
  · exact stops _ ⟨rfl, rfl, id⟩
  · exact stops _ ⟨rfl, rfl, id⟩

theorem resumePlayback_serves (immediate : closings → Immediate sink) (playing : Playing World)
    (now : Nat) : Serves closings playing (playing.resumePlayback sink now) := by
  unfold resumePlayback
  split
  · exact .refl _
  · exact (enterIdle_serves sink immediate playing).trans (Rests.serves ⟨rfl, rfl, id⟩)

theorem reset_serves (immediate : closings → Immediate sink) (playing : Playing World) (now : Nat) :
    Serves closings playing (playing.reset sink now) := by
  refine .trans ?_ (resumePlayback_serves sink immediate _ now)
  exact Rests.serves ⟨rfl, rfl, id⟩

theorem pause_serves (immediate : closings → Immediate sink) (playing : Playing World) :
    Serves closings playing (playing.pause sink) := by
  unfold pause
  split
  · exact .refl _
  · exact enterIdle_serves sink immediate playing

theorem setMuted_serves (immediate : closings → Immediate sink) (playing : Playing World)
    (muted : Bool) (now : Nat) :
    Serves closings playing (playing.setMuted sink muted now) := by
  unfold setMuted
  split
  · exact .refl _
  have noted : Serves closings playing { playing with pump.muted := muted } :=
    Rests.serves ⟨rfl, rfl, id⟩
  dsimp only
  split
  · exact noted
  split
  · exact noted.trans (enterIdle_serves sink immediate _)
  · exact noted.trans (reset_serves sink immediate _ now)

theorem completeOpen_serves (free : ¬ closings) (playing : Playing World) (rc : Int) (now : Nat) :
    Serves closings playing (playing.completeOpen rc now) := by
  have opened : ∀ after : Playing World,
      after.pump.service_operations_cycle = playing.pump.service_operations_cycle →
      after.pump.stats.maximum_service_operations_per_cycle =
        playing.pump.stats.maximum_service_operations_per_cycle →
      Serves closings playing after := fun after cycle maximum bounded =>
    ⟨cycle ▸ bounded.cycle, maximum ▸ bounded.maximum, fun closes => absurd closes free⟩
  unfold completeOpen
  split
  · dsimp only
    split
    · exact opened _ rfl rfl
    · refine .trans ?_ (degrade_rests _ rc).serves
      exact opened _ rfl rfl
  · exact opened _ rfl rfl

theorem completeWrite_rests (playing : Playing World) (written : Int) (copied : Nat) :
    Rests playing (playing.completeWrite sink written copied).2 := by
  unfold completeWrite
  split
  · exact .refl _
  split
  · exact degrade_rests playing _
  dsimp only
  split
  · exact takeAccepted_rests sink playing _
  · exact takeAccepted_rests sink playing _

theorem applyProgress_rests (playing : Playing World) (record : ProgressState) :
    Rests playing (playing.applyProgress record) := by
  unfold applyProgress
  split
  · exact .refl _
  split
  · exact degrade_rests playing _
  · unfold AudioPump.absorb AudioPump.leaveStream
    dsimp only
    split
    · exact ⟨rfl, rfl, id⟩
    · exact ⟨rfl, rfl, id⟩

theorem takeProgress_rests (playing : Playing World) (progress : Option ProgressState) :
    Rests playing (playing.takeProgress progress) := by
  unfold takeProgress
  split
  · exact .refl _
  · exact applyProgress_rests playing _

theorem completeOperation_serves (free : ¬ closings) (playing : Playing World)
    (operation : Operation) (rc : Int) (bytes now : Nat) :
    Serves closings playing (playing.completeOperation sink operation rc bytes now) := by
  unfold completeOperation
  split
  · exact completeOpen_serves free playing rc now
  · have written := completeWrite_rests sink playing rc bytes
    exact (written.trans (settleWrite_rests _ _ now)).serves
  · exact (completeClose_rests sink playing rc).serves
  · split
    · exact (degrade_rests playing rc).serves
    · exact .refl _
  · exact (degrade_rests playing _).serves
  · exact (degrade_rests playing _).serves

theorem discardAfterPending_serves (free : ¬ closings) (playing : Playing World) (terminal : Bool) :
    Serves closings playing (playing.discardAfterPending sink terminal) := by
  unfold discardAfterPending
  split
  · have noted : Serves closings playing { playing with pump.discard_after_pending := false } :=
      Rests.serves ⟨rfl, rfl, id⟩
    dsimp only
    split
    · exact noted.trans (discardQueue_rests _).serves
    · exact noted.trans (enterIdle_serves sink (fun closes => absurd closes free) _)
  · exact .refl _

theorem completePending_serves (free : ¬ closings) (playing : Playing World)
    (completion : Completion) (now : Nat) (terminal : Bool) :
    Serves closings playing (playing.completePending sink completion now terminal) := by
  unfold completePending
  split
  · exact .refl _
  next operation _ =>
  dsimp only
  have ended : Rests playing { playing with pump := endPending playing.pump operation completion } :=
    ⟨rfl, rfl, id⟩
  have taken : Rests playing (playing.takeReceipt operation completion now) :=
    (ended.trans (takeProgress_rests _ completion.progress)).trans ⟨rfl, rfl, id⟩
  have settled := taken.serves.trans (completeOperation_serves sink free
    (playing.takeReceipt operation completion now) operation
    (receiptResult playing.pump operation completion) playing.pump.pending_bytes now)
  have discarded := settled.trans (discardAfterPending_serves sink free _ terminal)
  exact discarded.trans (Rests.serves ⟨rfl, rfl, id⟩)

/-- A sink that is polled does not answer everything at once. -/
theorem pollPending_serves (immediate : closings → Immediate sink) (playing : Playing World)
    (now : Nat) (clock : Option (World → Nat × World)) :
    Serves closings playing (playing.pollPending sink now clock) := by
  unfold pollPending
  split
  · exact .refl _
  split
  · exact .refl _
  next poll polls =>
  have free : ¬ closings := by
    intro closes
    obtain ⟨device, member, -, silent⟩ := immediate closes
    obtain rfl := Option.mem_def.mp member
    rw [AudioSink.polls, show device.poll_fn = some poll from polls] at silent
    cases silent
  split
  · exact Rests.serves ⟨rfl, rfl, id⟩
  · dsimp only
    refine .trans ?_ (completePending_serves sink free _ _ _ _)
    exact Rests.serves ⟨rfl, rfl, id⟩

theorem tryOpen_serves (free : ¬ closings) (playing : Playing World) (now : Nat)
    (clock : Option (World → Nat × World)) :
    Serves closings playing (playing.tryOpen sink now clock) := by
  unfold tryOpen
  split
  · exact .refl _
  next ready =>
  have none_before := not_not.mp (not_or.mp ready).2
  split
  · exact (degrade_rests playing _).serves
  · next device =>
    dsimp only
    split
    · exact .first none_before rfl rfl fun closes => absurd closes free
    · refine .trans ?_ (completeOpen_serves free _ _ _)
      exact .first none_before rfl rfl fun closes => absurd closes free

theorem queryProgress_serves (free : ¬ closings)
    (none_before : playing.pump.service_operations_cycle = 0) (query : World → Int × World) (now : Nat)
    (clock : Option (World → Nat × World)) :
    Serves closings playing (playing.queryProgress query now clock) := by
  unfold queryProgress
  dsimp only
  split
  · exact .first none_before rfl rfl fun closes => absurd closes free
  split
  · refine .trans ?_ (degrade_rests _ _).serves
    exact .first none_before rfl rfl fun closes => absurd closes free
  · exact .first none_before rfl rfl fun closes => absurd closes free

theorem submitQuantum_serves (free : ¬ closings)
    (none_before : playing.pump.service_operations_cycle = 0) (copied : Nat) :
    Serves closings playing (playing.submitQuantum sink copied).2 := by
  unfold submitQuantum
  split
  · exact .refl _
  split
  · exact (degrade_rests playing _).serves
  next device =>
  dsimp only
  split
  · exact .first none_before rfl rfl fun closes => absurd closes free
  · refine .trans ?_ (completeWrite_rests (some device) _ _ copied).serves
    exact .first none_before rfl rfl fun closes => absurd closes free

theorem writeQuantum_serves (free : ¬ closings)
    (none_before : playing.pump.service_operations_cycle = 0) (copied now : Nat)
    (clock : Option (World → Nat × World)) :
    Serves closings playing (playing.writeQuantum sink copied now clock) := by
  have submitted : Serves closings playing (playing.submitQuantum sink copied).2 :=
    submitQuantum_serves sink free none_before copied
  unfold writeQuantum
  dsimp only
  split
  · split
    · exact submitted.trans (Rests.serves ⟨rfl, rfl, id⟩)
    · exact submitted.trans (Rests.serves ⟨rfl, rfl, id⟩)
  · exact submitted.trans (Rests.serves ⟨rfl, rfl, id⟩)
  · exact submitted
  · exact submitted

theorem playDue_serves (free : ¬ closings)
    (none_before : playing.pump.service_operations_cycle = 0) (now : Nat)
    (clock : Option (World → Nat × World)) :
    Serves closings playing (playing.playDue sink now clock) := by
  unfold playDue
  split
  · exact .refl _
  dsimp only
  split
  · split
    · exact Rests.serves ⟨rfl, rfl, id⟩
    · exact Rests.serves ⟨rfl, rfl, id⟩
  split
  · exact Rests.serves ⟨rfl, rfl, id⟩
  split
  · refine .trans ?_ (tryOpen_serves sink free _ now clock)
    exact Rests.serves ⟨rfl, rfl, id⟩
  · refine .trans ?_ (writeQuantum_serves sink free (by exact none_before) _ now clock)
    exact Rests.serves ⟨rfl, rfl, id⟩

/-- The pump closes the sink again in a cycle that had an operation already. -/
def RetriesAgain (playing : Playing World) (now : Nat) : Prop :=
  playing.pump.pending_operation = none ∧ playing.pump.close_pending = true ∧
    playing.pump.close_retry_tick ≤ now ∧ playing.pump.sink_open = true ∧
    playing.pump.service_operations_cycle ≠ 0

omit [AudioAbi] in
instance (playing : Playing World) (now : Nat) : Decidable (RetriesAgain playing now) :=
  inferInstanceAs (Decidable (_ ∧ _))

theorem retryClose_serves (immediate : closings → Immediate sink)
    (now : Nat) (clock : Option (World → Nat × World)) (wanted : playing.pump.close_pending = true)
    (first : ¬ playing.RetriesAgain now) :
    Serves closings playing (playing.retryClose sink now clock) := by
  unfold retryClose
  split
  · exact .refl _
  next due =>
  have closed : Serves closings playing (playing.closeSink sink) :=
    closeSink_serves sink immediate fun idle still_open => by
      by_contra some_operation
      exact first ⟨idle, wanted, Nat.le_of_not_lt due, still_open, some_operation⟩
  dsimp only
  split
  · exact closed.trans (Rests.serves ⟨rfl, rfl, id⟩)
  · exact closed

theorem pumpReady_serves (immediate : closings → Immediate sink)
    (now : Nat) (running : Bool) (clock : Option (World → Nat × World))
    (stopped : closings → running = false) (first : ¬ playing.RetriesAgain now) :
    Serves closings playing (playing.pumpReady sink now running clock) := by
  unfold pumpReady
  dsimp only
  split
  · exact .refl _
  split
  · next wanted => exact retryClose_serves sink immediate now clock wanted first
  split
  · exact .refl _
  split
  · exact enterIdle_serves sink immediate playing
  next going =>
  have free : ¬ closings := fun closes => going (.inl (stopped closes))
  split
  · exact .refl _
  next none_before =>
  have none_before := not_not.mp none_before
  split
  · exact queryProgress_serves free none_before _ now clock
  · exact playDue_serves sink free none_before now clock

/-- The pump closes a sink that has no end of its own. -/
def EndsOpen (playing : Playing World) : Prop :=
  playing.pump.state ≠ .closed ∧ playing.pump.state ≠ .disabled ∧
    (∃ device ∈ sink, device.finish_fn = none) ∧ playing.pump.sink_open = true ∧
    playing.pump.pending_operation = none

theorem takeFinish_serves (playing : Playing World) (finish : Finish) :
    Serves False playing (playing.takeFinish sink finish) := by
  have ends : ∀ settled : Playing World, Serves False playing settled →
      Serves False playing (settled.takeProgress finish.progress) := fun settled serves =>
    serves.trans (takeProgress_rests settled finish.progress).serves
  unfold takeFinish
  dsimp only
  cases finish.completion with
  | none => exact (ends _ (.refl _)).trans (Rests.serves ⟨rfl, rfl, fun _ => rfl⟩)
  | some completion =>
    exact (ends _ (completePending_serves sink id playing completion 0 true)).trans
      (Rests.serves ⟨rfl, rfl, fun _ => rfl⟩)

theorem close_serves (first : playing.EndsOpen sink → playing.pump.service_operations_cycle = 0) :
    Serves False playing (playing.close sink) := by
  unfold close
  split
  · exact .refl _
  next opened =>
  obtain ⟨not_closed, not_disabled⟩ := not_or.mp opened
  have ended : Serves False playing (playing.endSink sink) := by
    unfold endSink
    split
    · exact .refl _
    next device =>
    split
    · next finish _ =>
      refine .trans ?_ (takeFinish_serves _ _ (finish playing.world).1)
      exact Rests.serves ⟨rfl, rfl, id⟩
    · next no_end =>
      split
      · next still_open =>
        exact closeSink_serves (some device) False.elim fun idle _ =>
          first ⟨not_closed, not_disabled, ⟨device, rfl, no_end⟩, still_open, idle⟩
      · exact .refl _
  refine (ended.trans (discardQueue_rests _).serves).trans ?_
  exact Rests.serves ⟨rfl, rfl, id⟩

end Sinks

variable (guest : GuestDriver World)

theorem fillStep_rests (target frame_bytes : Nat) (playing : Playing World) :
    Rests playing (playing.fillStep guest target frame_bytes).2 := by
  unfold fillStep
  dsimp only
  split
  · split
    · exact .refl _
    split
    · exact ⟨rfl, rfl, id⟩
    split
    · exact ⟨rfl, rfl, id⟩
    split
    · exact ⟨rfl, rfl, id⟩
    split
    · exact ⟨rfl, rfl, id⟩
    · exact ⟨rfl, rfl, id⟩
  · exact .refl _

theorem fillLoop_rests (target frame_bytes : Nat) (playing : Playing World) :
    Rests playing (playing.fillLoop guest target frame_bytes).2 := by
  induction playing using Playing.fillLoop.induct guest target frame_bytes with
  | case1 playing answer after step =>
    have turn := fillStep_rests guest target frame_bytes playing
    rw [Playing.fillLoop]
    split
    · next stopped =>
      rw [stopped] at turn
      exact turn
    · next more => cases step.symm.trans more
  | case2 playing after step induction =>
    have turn := fillStep_rests guest target frame_bytes playing
    rw [Playing.fillLoop]
    split
    · next stopped => cases step.symm.trans stopped
    · next more =>
      cases step.symm.trans more
      rw [more] at turn
      exact turn.trans induction

theorem fill_rests (now : Nat) (guest_stepped : Bool) (playing : Playing World) :
    Rests playing (playing.fill guest now guest_stepped).2 := by
  unfold fill
  dsimp only
  split
  · exact .refl _
  split
  · exact .refl _
  split
  · exact .refl _
  split
  · exact fillLoop_rests guest _ _ playing
  · exact .refl _

theorem resyncLate_rests (now : Nat) :
    Rests playing (playing.resyncLate now) := by
  unfold resyncLate
  dsimp only
  split
  · exact .refl _
  split
  · exact .refl _
  split
  · exact .refl _
  · exact ⟨rfl, rfl, id⟩

end Playing

namespace Session

variable {World : Type} {closings : Prop}

variable (session : Session World) (host_tick : Nat)

theorem start_rests :
    Rests session.toPlaying (session.start host_tick).toPlaying := by
  unfold start
  split
  · exact .refl _
  · dsimp only
    unfold AudioPump.start
    split
    · exact ⟨rfl, rfl, id⟩
    · exact ⟨rfl, rfl, id⟩

theorem deliver_rests (guest : GuestDriver World) :
    Rests session.toPlaying (session.deliverAudioFeedback guest).toPlaying := by
  unfold deliverAudioFeedback
  split
  · split
    · exact ⟨rfl, rfl, id⟩
    dsimp only
    split
    · exact ⟨rfl, rfl, id⟩
    · exact ⟨rfl, rfl, id⟩
  · exact .refl _

theorem deliver_state (guest : GuestDriver World) :
    (session.deliverAudioFeedback guest).runtime.state = session.runtime.state := by
  unfold deliverAudioFeedback
  split
  · split
    · rfl
    dsimp only
    split
    · rfl
    · rfl
  · rfl

section Guests

variable (drivers : Drivers World)

theorem checkClose_rests (session : Session World) :
    Rests session.toPlaying (session.checkClose drivers).2.toPlaying := by
  unfold checkClose
  split
  · exact .refl _
  · exact ⟨rfl, rfl, id⟩

theorem takeStep_rests (step : StepResult) :
    Rests session.toPlaying (session.takeStep step).toPlaying := by
  unfold takeStep
  cases step.status with
  | progress | waiting | completed | failed => exact ⟨rfl, rfl, id⟩

theorem stepGuest_rests (session : Session World) :
    Rests session.toPlaying (session.stepGuest drivers).2.toPlaying := by
  unfold stepGuest
  dsimp only
  split
  · refine .trans ?_ (takeStep_rests _ _)
    exact ⟨rfl, rfl, id⟩
  · exact .refl _

theorem presentFrame_rests (session : Session World) :
    Rests session.toPlaying (session.presentFrame drivers).toPlaying := by
  unfold presentFrame
  dsimp only
  split
  · split
    · exact ⟨rfl, rfl, id⟩
    split
    · exact ⟨rfl, rfl, id⟩
    · exact ⟨rfl, rfl, id⟩
  · exact .refl _

theorem guestCycle_rests (session : Session World) (host_tick : Nat) :
    Rests session.toPlaying (session.guestCycle drivers host_tick).2.toPlaying := by
  have resynced : Rests session.toPlaying (if session.runtime.state = .running then
      session.audio fun playing => playing.resyncLate host_tick else session).toPlaying := by
    split
    · exact Playing.resyncLate_rests _ _
    · exact .refl _
  have told := resynced.trans (deliver_rests _ drivers.guest)
  exact (told.trans (stepGuest_rests drivers _)).trans (presentFrame_rests drivers _)

theorem fillAudio_rests (session : Session World) (host_tick : Nat) (guest_stepped : Bool) :
    Rests session.toPlaying (session.fillAudio drivers host_tick guest_stepped).toPlaying := by
  have filled := Playing.fill_rests drivers.guest host_tick guest_stepped session.toPlaying
  unfold fillAudio
  dsimp only
  split
  · split
    · exact filled
    · exact filled
  · exact .refl _

end Guests

section Requests

variable [AudioAbi] (drivers : Drivers World) (immediate : closings → Immediate drivers.sink)

variable {session : Session World}

include immediate

theorem request_serves (session : Session World) (command : LifecycleCommand) (host_tick : Nat) :
    Serves closings session.toPlaying (session.request drivers command host_tick).toPlaying := by
  have pauses : Serves closings session.toPlaying
      (session.requestPause drivers host_tick).toPlaying := by
    unfold requestPause
    split
    · exact Playing.pause_serves drivers.sink immediate session.toPlaying
    · exact .refl _
  have resumes : Serves closings session.toPlaying
      (session.requestResume drivers host_tick).toPlaying := by
    unfold requestResume
    split
    · exact Playing.resumePlayback_serves drivers.sink immediate session.toPlaying host_tick
    · exact .refl _
  unfold request
  split
  · exact .refl _
  split
  · exact .refl _
  · exact pauses
  · exact resumes
  · split
    · exact resumes
    · exact pauses
  · unfold requestReset
    dsimp only
    split
    · exact Rests.serves ⟨rfl, rfl, id⟩
    · refine .trans ?_ (Rests.serves ⟨rfl, rfl, id⟩)
      refine .trans ?_ (Playing.reset_serves drivers.sink immediate _ host_tick)
      exact Rests.serves ⟨rfl, rfl, id⟩
  · exact Playing.setMuted_serves drivers.sink immediate session.toPlaying true host_tick
  · exact Playing.setMuted_serves drivers.sink immediate session.toPlaying false host_tick
  · exact Playing.setMuted_serves drivers.sink immediate session.toPlaying _ host_tick
  · exact Rests.serves ⟨rfl, rfl, id⟩

theorem pollHost_serves (host_tick events : Nat) (session : Session World) :
    Serves closings session.toPlaying
      (pollHost drivers host_tick events session).2.toPlaying := by
  induction events generalizing session with
  | zero => exact .refl _
  | succ events induction =>
    have answered : Serves closings session.toPlaying
        { session with world := (drivers.host.poll_fn session.world).2 }.toPlaying :=
      Rests.serves ⟨rfl, rfl, id⟩
    unfold pollHost
    dsimp only
    split
    · exact answered
    · exact answered.trans (induction _)
    · refine answered.trans (.trans ?_ (induction _))
      exact Rests.serves ⟨rfl, rfl, id⟩
    · refine answered.trans (.trans ?_ (induction _))
      exact Rests.serves ⟨rfl, rfl, id⟩
    · next command _ =>
      have asked := answered.trans (request_serves drivers immediate _ command host_tick)
      split
      · exact asked
      · exact asked.trans (induction _)
    · exact answered.trans (Rests.serves ⟨rfl, rfl, id⟩)

theorem pollCycle_bounded (bounded : Bounded False session.pump)
    (host_tick : Nat) : Bounded closings (session.pollCycle drivers host_tick).2.pump := by
  have started := (start_rests session host_tick).serves bounded
  have begun : Bounded closings (session.beginCycle host_tick).pump :=
    ⟨Nat.zero_le _, started.maximum, fun _ some_operation => absurd rfl some_operation⟩
  have checked := (checkClose_rests drivers (session.beginCycle host_tick)).serves begun
  unfold pollCycle
  dsimp only
  split
  · exact request_serves drivers immediate _ .close host_tick checked
  · exact pollHost_serves drivers immediate host_tick _ _ checked

theorem beforePump_serves (session : Session World) (host_tick : Nat)
    (clock : Option (World → Nat × World)) :
    Serves closings session.toPlaying (session.beforePump drivers host_tick clock).toPlaying := by
  have stepped : Serves closings session.toPlaying
      (session.guestCycle drivers host_tick).2.toPlaying :=
    (guestCycle_rests drivers session host_tick).serves
  have polled := stepped.trans (Playing.pollPending_serves drivers.sink immediate
    (session.guestCycle drivers host_tick).2.toPlaying host_tick clock)
  refine polled.trans (Rests.serves ?_)
  exact fillAudio_rests drivers ((session.guestCycle drivers host_tick).2.audio fun playing =>
    playing.pollPending drivers.sink host_tick clock) host_tick _

omit immediate

/-- The operation of a cycle; it is a closing unless the guest runs. -/
theorem servePump_bounded {host_tick : Nat}
    (bounded : Bounded (Immediate drivers.sink) session.pump)
    (first : ¬ session.RetriesAgain host_tick) (clock : Option (World → Nat × World)) :
    Bounded False (session.servePump drivers host_tick clock).pump ∧
      ((session.servePump drivers host_tick clock).runtime.state.isTerminal = true →
        Bounded (Immediate drivers.sink) (session.servePump drivers host_tick clock).pump) := by
  have told := deliver_rests (session.audio fun playing => playing.pumpReady drivers.sink host_tick
    (decide (session.runtime.state = .running)) clock) drivers.guest
  constructor
  · exact told.serves (Playing.pumpReady_serves drivers.sink False.elim host_tick _ clock False.elim
      first bounded.weaken)
  · intro terminal
    have stopped : session.runtime.state ≠ .running := by
      intro running
      have same : (session.servePump drivers host_tick clock).runtime.state =
          session.runtime.state := deliver_state _ _
      rw [same, running] at terminal
      cases terminal
    exact told.serves (Playing.pumpReady_serves drivers.sink id host_tick _ clock
      (fun _ => decide_eq_false stopped) first bounded)

theorem shutdown_serves (first : session.runtime.resources_closed = false →
      session.EndsOpen drivers.sink → session.pump.service_operations_cycle = 0) :
    Serves False session.toPlaying (session.shutdown drivers).toPlaying := by
  unfold shutdown
  split
  · exact .refl _
  · next still_open =>
    exact (Playing.close_serves drivers.sink (first (Bool.eq_false_iff.mpr still_open))).trans
      (Rests.serves ⟨rfl, rfl, id⟩)

theorem finish_serves (first : session.runtime.resources_closed = false →
      session.EndsOpen drivers.sink → session.pump.service_operations_cycle = 0) :
    Serves False session.toPlaying (session.finish drivers).2.toPlaying := by
  have ended := shutdown_serves drivers first
  unfold finish
  dsimp only
  split
  · exact ended
  · exact ended

/-- The cycle closes the sink again after it was closed in vain. -/
def CycleRepeats (session : Session World) (host_tick : Nat)
    (clock : Option (World → Nat × World)) : Prop :=
  (session.pollCycle drivers host_tick).1 = false ∧
    ((session.pollCycle drivers host_tick).2.beforePump drivers host_tick clock).RetriesAgain
      host_tick

/-- The shutdown closes the sink after an operation of the last cycle. -/
def ShutdownRepeats (session : Session World) : Prop :=
  session.runtime.resources_closed = false ∧ session.EndsOpen drivers.sink ∧
    session.pump.service_operations_cycle ≠ 0

/-- A call starts an operation again. -/
def CallRepeats (session : Session World) : Call → Prop
  | .cycle host_tick live =>
    CycleRepeats drivers session host_tick (if live then some drivers.ticks else none)
  | .request _ _ => False
  | .waitFailed _ => False
  | .shutdown => ShutdownRepeats drivers session

omit [AudioAbi] in
instance (session : Session World) : Decidable (ShutdownRepeats drivers session) :=
  inferInstanceAs (Decidable (_ ∧ (_ ∧ _ ∧ (∃ device ∈ drivers.sink, device.finish_fn = none) ∧ _) ∧ _))

instance (session : Session World) (next : Call) : Decidable (CallRepeats drivers session next) :=
  match next with
  | .cycle _ _ => inferInstanceAs (Decidable (_ ∧ Playing.RetriesAgain _ _))
  | .request _ _ => .isFalse id
  | .waitFailed _ => .isFalse id
  | .shutdown => inferInstanceAs (Decidable (ShutdownRepeats drivers session))

/-- A sink that is polled has an end of its own. -/
def Supported (sink : Option (AudioSink World)) : Prop :=
  (sink.all fun sink => !sink.polls || sink.finish_fn.isSome) = true

omit [AudioAbi] in
/-- After closings there is nothing to close at the end. -/
theorem Bounded.settled {pump : AudioPump} (supported : Supported drivers.sink)
    (bounded : Bounded (Immediate drivers.sink) pump) {device : AudioSink World}
    (member : device ∈ drivers.sink) (no_end : device.finish_fn = none)
    (still_open : pump.sink_open = true) : pump.service_operations_cycle = 0 := by
  by_contra some_operation
  have silent : device.polls = false := by
    rw [Supported, Option.mem_def.mp member] at supported
    simpa [no_end] using supported
  rw [bounded.closed ⟨device, member, no_end, silent⟩ some_operation] at still_open
  cases still_open

theorem cycleWork_bounded (supported : Supported drivers.sink)
    (bounded : Bounded False session.pump) {host_tick : Nat} {clock : Option (World → Nat × World)}
    (first : ¬ CycleRepeats drivers session host_tick clock) :
    Bounded False (session.cycleWork drivers host_tick clock).2.pump := by
  have polled : Bounded (Immediate drivers.sink) (session.pollCycle drivers host_tick).2.pump :=
    pollCycle_bounded drivers id bounded host_tick
  have ends : ∀ {after : Session World}, Bounded (Immediate drivers.sink) after.pump →
      Bounded False (after.finish drivers).2.pump := fun {after} settled =>
    finish_serves drivers (fun _ ends => by
      obtain ⟨-, -, ⟨device, member, no_end⟩, still_open, -⟩ := ends
      exact Bounded.settled drivers supported settled member no_end still_open) settled.weaken
  unfold cycleWork
  dsimp only
  split
  · exact ends polled
  · next going =>
    have before := beforePump_serves drivers id _ host_tick clock polled
    have served := servePump_bounded drivers before
      (fun again => first ⟨Bool.eq_false_iff.mpr going, again⟩) clock
    split
    · next terminal => exact ends (served.2 terminal)
    · exact served.1

theorem call_bounded (supported : Supported drivers.sink)
    (bounded : Bounded False session.pump) {next : Call}
    (first : ¬ CallRepeats drivers session next) :
    Bounded False (session.call drivers next).pump := by
  cases next with
  | cycle host_tick live => exact cycleWork_bounded drivers supported bounded first
  | request command host_tick =>
    exact request_serves drivers False.elim session command host_tick bounded
  | waitFailed raw => exact bounded
  | shutdown =>
    refine shutdown_serves drivers (fun unclosed ends => ?_) bounded
    by_contra some_operation
    exact first ⟨unclosed, ends, some_operation⟩

end Requests

theorem init_bounded {config : Config} {monotonic_hz host_tick : Nat} {audio : Option AudioOptions}
    {sink : Option (AudioSink World)} {world : World} {session : Session World}
    (made : init config monotonic_hz host_tick audio sink world = .ok session)
    (silent : audio = none → sink = none) : Supported sink ∧ Bounded False session.pump := by
  unfold init at made
  obtain ⟨_, _, made⟩ := bind_eq_ok.mp made
  obtain ⟨_, _, made⟩ := bind_eq_ok.mp made
  obtain ⟨pump, opened, made⟩ := bind_eq_ok.mp made
  cases made
  cases audio with
  | none =>
    cases opened
    rw [silent rfl]
    exact ⟨rfl, Nat.zero_le _, Nat.zero_le _, False.elim⟩
  | some options =>
    obtain ⟨supported, _, _, _, _, _, _, _, _, rfl⟩ := AudioPump.init_eq opened
    exact ⟨supported, Nat.zero_le _, Nat.zero_le _, False.elim⟩

end Session

/-- In a cycle the pump starts at most one operation of its sink, in every run in which it does not
close the sink again in a cycle that had an operation already: neither when it retries to close it, nor
when the runtime is shut down with an open sink that has no end of its own.  A runtime without audio has
no sink. -/
theorem one_operation_per_cycle {World : Type} [AudioAbi] (drivers : Drivers World) (config : Config)
    (monotonic_hz host_tick : Nat) (audio : Option AudioOptions) (world : World)
    (session : Session World)
    (made : Session.init config monotonic_hz host_tick audio drivers.sink world = .ok session)
    (silent : audio = none → drivers.sink = none) (calls : List Session.Call)
    (first : AllowedRun (Session.call drivers)
      (fun state next => ¬ Session.CallRepeats drivers state next) session calls) :
    let after := session.run drivers calls
    after.pump.service_operations_cycle ≤ 1 ∧
      after.pump.stats.maximum_service_operations_per_cycle ≤ 1 := by
  obtain ⟨supported, bounded⟩ := Session.init_bounded made silent
  have kept : Bounded False (session.run drivers calls).pump :=
    first.keeps (fun after next bounded first =>
      Session.call_bounded drivers supported bounded first) bounded
  exact ⟨kept.cycle, kept.maximum⟩

section Hasty

local instance hastyAbi : AudioAbi := sampleAbi

/-- A sink that completes operations when it is polled, and that is too busy to be closed. -/
def hastySink : AudioSink Nat where
  open_fn := fun world _ => (0, world)
  write_fn := fun world _ => (transport_pending, world)
  close_fn := fun world => (sampleAbi.service_api_result_busy, world)
  poll_fn := some fun world => (none, world)
  finish_fn := some fun world => ({}, world)

/-- A guest that renders the same sample without end; the second event of its host is a pause. -/
def hastyDrivers : Drivers Nat where
  guest :=
    { step_fn := fun world _ _ => ({}, world)
      reset_fn := fun world => (0, world)
      render_audio_fn := fun world bytes => (bytes.length, fun _ => 1, world) }
  host :=
    { poll_fn := fun world => (if world = 1 then .command .pause else .idle, world + 1)
      present_fn := fun world => (0, world) }
  sink := some hastySink
  ticks := fun world => (0, world)

def hastySession : Session Nat where
  pump := strayingSession.pump
  world := 0
  runtime := strayingSession.runtime

theorem hasty_init :
    Session.init { max_wait_ticks := 100 } 1000 0 (some strayingAudio) hastyDrivers.sink 0 =
      .ok hastySession := by
  have quantum_ticks : durationToTicks 20834 1000 = .ok 1 := by decide
  have busy_retry_ticks : durationToTicks 10000000 1000 = .ok 10 := by decide
  have open_retry_ticks : durationToTicks 50000000 1000 = .ok 50 := by decide
  simp [Session.init, strayingAudio, AudioPump.init, require, AudioConfig.quantumBytes,
    AudioConfig.frameBytes, AudioConfig.targetBytes, mulChecked, maxWord, bind, Except.bind,
    nanoseconds_per_second, quantum_ticks, busy_retry_ticks, open_retry_ticks,
    audio_open_retry_nanoseconds, hastyDrivers, hastySession, strayingSession, PcmQueue.init,
    Option.elim, pure, Except.pure, AudioSink.polls, hastySink]

/-- The first cycle opens the sink. -/
theorem one_operation_per_cycle_hasty :
    (hastySession.run hastyDrivers [.cycle 0 false]).pump.sink_open = true ∧
      (hastySession.run hastyDrivers [.cycle 0 false]).pump.service_operations_cycle ≤ 1 ∧
      (hastySession.run hastyDrivers
        [.cycle 0 false]).pump.stats.maximum_service_operations_per_cycle ≤ 1 :=
  ⟨by decide +kernel,
    one_operation_per_cycle hastyDrivers { max_wait_ticks := 100 } 1000 0 (some strayingAudio) 0
      hastySession hasty_init (by simp) [.cycle 0 false] (by decide +kernel)⟩

/-- The second cycle closes the sink twice: for the pause, and to retry it. -/
theorem two_operations_in_a_cycle :
    let after := hastySession.run hastyDrivers [.cycle 0 false, .cycle 1 false]
    Session.init { max_wait_ticks := 100 } 1000 0 (some strayingAudio) hastyDrivers.sink 0 =
        .ok hastySession ∧
      after.pump.service_operations_cycle = 2 ∧
      after.pump.stats.maximum_service_operations_per_cycle = 2 :=
  ⟨hasty_init, by decide +kernel⟩

end Hasty

end R4OS.Subsystem
