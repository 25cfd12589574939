import R4OS.Subsystem.Accounting

/-!
# The books of a cycle

The parts of a cycle that touch PCM: polling the sink, filling the queue, dropping what is late,
starting an operation and ending the pump.
-/

namespace R4OS.Subsystem

open Buffer Text

namespace Playing

variable {World : Type} {produces loses : Prop} {playing : Playing World} {offer : Option Bytes}

variable (guest : GuestDriver World)

theorem renderAudio_length {wanted : Nat} (fits : wanted ≤ playing.pump.scratch.length) :
    (playing.renderAudio guest wanted).2.pump.scratch.length = playing.pump.scratch.length := by
  simp only [renderAudio, List.length_append, List.length_map, List.length_range, List.length_drop]
  omega

section

variable (kept : playing.Kept none)

include kept

theorem Kept.renderAudio {wanted : Nat} (fits : wanted ≤ playing.pump.scratch.length) :
    Moves produces loses playing none (playing.renderAudio guest wanted).2 none := by
  have painted : (playing.renderAudio guest wanted).2.data = playing.data.put playing.pump.queue
      (playing.renderAudio guest wanted).2.pump.scratch := rfl
  refine kept.repaint painted kept.data.sound rfl rfl (fun nothing => ?_) kept.quiet
  refine List.length_eq_zero_iff.mp ?_
  exact (renderAudio_length guest fits).trans (List.length_eq_zero_iff.mpr nothing)

theorem Kept.queueRendered {count : Nat}
    (fits : count ≤ playing.pump.scratch.length) (room : count ≤ playing.pump.queue.free)
    (some_bytes : count ≠ 0) (whole : playing.pump.queue.frame_bytes ∣ count) :
    (playing.queueRendered count).1 = count ∧
      Moves True loses playing none (playing.queueRendered count).2 none := by
  have length_eq : (playing.pump.scratch.take count).length = count := by
    rw [List.length_take, min_eq_left fits]
  have filled : playing.pump.scratch.take count ≠ [] := by
    intro nothing
    rw [nothing] at length_eq
    exact some_bytes length_eq.symm
  obtain ⟨written, sound, contents⟩ := PcmQueue.Sound.write kept.data.sound
    (show playing.pump.queue.frame_bytes ∣ (playing.pump.scratch.take count).length by rwa [length_eq])
    (show (playing.pump.scratch.take count).length ≤ playing.pump.queue.free by rwa [length_eq])
    filled
  refine ⟨written.trans length_eq, ?_⟩
  have enter_eq : playing.data.enter (.produced (playing.pump.scratch.take count)) =
      { playing.data with
        generated_bytes := playing.data.generated_bytes + .ofNat count
        entries := playing.data.entries ++ [.produced (playing.pump.scratch.take count)] } := by
    rw [AudioData.enter, length_eq]
  have data_eq : (playing.queueRendered count).2.data =
      (playing.data.enter (.produced (playing.pump.scratch.take count))).put
        (playing.pump.queue.write (playing.pump.scratch.take count)).2 playing.pump.scratch := by
    rw [Playing.queueRendered, data_record, enter_eq]
    rfl
  refine kept.enter data_eq ?_ sound rfl id kept.quiet
  rw [show (playing.pump.queue.write (playing.pump.scratch.take count)).2.contents = _ from contents]
  exact .produce trivial rfl (by rwa [length_eq])

theorem Kept.fillStep (target : Nat) {frame_bytes : Nat}
    (unit : playing.pump.config.frameBytes = .ok frame_bytes) :
    Moves True loses playing none (playing.fillStep guest target frame_bytes).2 none ∧
      (playing.fillStep guest target frame_bytes).2.pump.config = playing.pump.config := by
  unfold Playing.fillStep
  dsimp only
  split
  · generalize wanted_eq : wholeFrames (min playing.pump.scratch.length
      (min (target - playing.pump.queue.available) playing.pump.queue.free)) frame_bytes = wanted
    have wanted_le : wanted ≤ min playing.pump.scratch.length
        (min (target - playing.pump.queue.available) playing.pump.queue.free) :=
      wanted_eq ▸ wholeFrames_le _ _
    split
    · exact ⟨kept.refl, rfl⟩
    next some_wanted =>
    have fits : wanted ≤ playing.pump.scratch.length := by omega
    have painted : Moves True loses playing none (playing.renderAudio guest wanted).2 none :=
      kept.renderAudio guest fits
    split
    · exact ⟨painted, rfl⟩
    split
    · exact ⟨painted, rfl⟩
    next some_bytes =>
    split
    · exact ⟨painted, rfl⟩
    next whole =>
    obtain ⟨small, whole⟩ := not_or.mp whole
    have frame : frame_bytes = playing.pump.queue.frame_bytes := by
      refine kept.data.frame.elim (fun nothing => ?_) fun known => ?_
      · rw [show playing.pump.scratch = [] from nothing] at fits
        exact absurd (Nat.eq_zero_of_le_zero fits) some_wanted
      · exact Except.ok.inj (unit.symm.trans known)
    have queued : Moves True loses (playing.renderAudio guest wanted).2 none
        ((playing.renderAudio guest wanted).2.queueRendered
          (playing.renderAudio guest wanted).1.toNat).2 none := by
      refine (painted.kept.queueRendered ?_ ?_ some_bytes ?_).2
      · rw [renderAudio_length guest fits]
        omega
      · change _ ≤ playing.pump.queue.free
        omega
      · rw [painted.frame, ← frame]
        exact Nat.dvd_of_mod_eq_zero (not_not.mp whole)
    split
    · exact ⟨painted.trans queued, rfl⟩
    · exact ⟨painted.trans queued, rfl⟩
  · exact ⟨kept.refl, rfl⟩

theorem Kept.fillLoop (target : Nat) {frame_bytes : Nat}
    (unit : playing.pump.config.frameBytes = .ok frame_bytes) :
    Moves True loses playing none (playing.fillLoop guest target frame_bytes).2 none := by
  induction playing using Playing.fillLoop.induct guest target frame_bytes with
  | case1 playing answer after step =>
    have turn : Moves True loses playing none (playing.fillStep guest target frame_bytes).2 none ∧ _ :=
      kept.fillStep guest target unit
    rw [Playing.fillLoop]
    split
    · next stopped =>
      rw [stopped] at turn
      exact turn.1
    · next more => cases step.symm.trans more
  | case2 playing after step induction =>
    have turn : Moves True loses playing none (playing.fillStep guest target frame_bytes).2 none ∧ _ :=
      kept.fillStep guest target unit
    rw [Playing.fillLoop]
    split
    · next stopped => cases step.symm.trans stopped
    · next more =>
      cases step.symm.trans more
      rw [more] at turn
      exact turn.1.trans (induction turn.1.kept (turn.2 ▸ unit))

end

theorem Kept.fill (kept : playing.Kept playing.offered) (guest : GuestDriver World) (now : Nat)
    (guest_stepped : Bool) :
    Moves True loses playing playing.offered (playing.fill guest now guest_stepped).2
      (playing.fill guest now guest_stepped).2.offered := by
  unfold Playing.fill
  dsimp only
  split
  · exact kept.refl
  next busy =>
  split
  · exact kept.refl
  split
  · exact kept.refl
  split
  · next target frame_bytes _ unit =>
    have offer_eq := offered_idle (not_not.mp (not_or.mp busy).1)
    rw [offer_eq] at kept ⊢
    have filled : Moves True loses playing none (playing.fillLoop guest target frame_bytes).2 none :=
      kept.fillLoop guest target unit
    rw [filled.kept.offered]
    exact filled
  · exact kept.refl

theorem Kept.dropLate (kept : playing.Kept none) (now : Nat) :
    Moves produces loses playing none (playing.dropLate now) none := by
  have length_eq : playing.pump.queue.contents.length = playing.pump.queue.len :=
    kept.data.sound.contents_length
  have data_eq : (playing.dropLate now).data =
      (playing.data.enter (.discarded playing.pump.queue.contents.length)).put
        playing.pump.queue.clear playing.pump.scratch := by
    rw [length_eq, Playing.dropLate, data_record]
    rfl
  refine kept.enter data_eq ?_ PcmQueue.Sound.clear rfl id kept.quiet
  rw [PcmQueue.Sound.clear_contents]
  exact .discard

theorem Kept.resyncLate (kept : playing.Kept playing.offered) (now : Nat) :
    Moves produces loses playing playing.offered (playing.resyncLate now)
      (playing.resyncLate now).offered := by
  unfold Playing.resyncLate
  dsimp only
  split
  · exact kept.refl
  next idle =>
  have offer_eq := offered_idle (not_not.mp idle)
  split
  · exact kept.refl
  split
  · exact kept.refl
  rw [offer_eq] at kept ⊢
  have dropped : Moves produces loses playing none (playing.dropLate now) none := kept.dropLate now
  rw [dropped.kept.offered]
  exact dropped

theorem Kept.suppressSilence (kept : playing.Kept none) {copied : Nat}
    (whole : playing.pump.queue.frame_bytes ∣ copied)
    (available : copied ≤ playing.pump.queue.contents.length) (now : Nat) :
    Moves produces loses playing none (playing.suppressSilence copied now) none := by
  have whole_len : playing.pump.queue.frame_bytes ∣ playing.pump.queue.len := by
    have held := kept.data.ordered.held
    rwa [show (playing.data.ledger none).held.length = playing.pump.queue.len from
      kept.data.sound.contents_length] at held
  obtain ⟨sound, contents⟩ := PcmQueue.Sound.discard kept.data.sound whole whole_len
  have data_eq : (playing.suppressSilence copied now).data =
      (playing.data.enter (.suppressed copied)).put (playing.pump.queue.discard copied).2
        playing.pump.scratch := by
    rw [Playing.suppressSilence, data_record]
    rfl
  refine kept.enter data_eq ?_ sound rfl id kept.quiet
  rw [show (playing.pump.queue.discard copied).2.contents = _ from contents]
  exact .suppress rfl whole available

theorem Kept.closeQueue (kept : playing.Kept offer) :
    Moves produces loses playing offer { playing.discardQueue with
      pump := { playing.discardQueue.pump with close_pending := false, state := .closed } }
      offer := by
  have length_eq : playing.pump.queue.contents.length = playing.pump.queue.len :=
    kept.data.sound.contents_length
  have data_eq : playing.discardQueue.data =
      (playing.data.enter (.discarded playing.pump.queue.contents.length)).put
        playing.pump.queue.clear playing.pump.scratch := by
    rw [length_eq, Playing.discardQueue, data_record]
    rfl
  refine kept.enterWith data_eq ?_ PcmQueue.Sound.clear rfl id (fun now => kept.offers now)
    fun _ => rfl
  rw [PcmQueue.Sound.clear_contents]
  exact .discard

section Sinks

variable [AudioAbi] (sink : Option (AudioSink World))

/-- The receipt that a poll of the sink answers with. -/
def polled (playing : Playing World) : Option Completion :=
  match sink.bind AudioSink.poll_fn with
  | none => none
  | some poll => (poll playing.world).1

/-- The receipt that polling the sink brings loses bytes. -/
def PollLoses (playing : Playing World) : Prop :=
  ∃ completion ∈ playing.polled sink, LosesBytes playing.pump completion

theorem Kept.pollPending (kept : playing.Kept playing.offered) (now : Nat)
    (clock : Option (World → Nat × World)) :
    Moves produces (playing.PollLoses sink) playing playing.offered
      (playing.pollPending sink now clock) (playing.pollPending sink now clock).offered := by
  unfold Playing.pollPending
  split
  · exact kept.refl
  split
  · exact kept.refl
  next poll polls =>
  split
  · next world silent =>
    have waited : Turns produces (playing.PollLoses sink) playing playing.offered
        { playing with world } := kept.still ⟨rfl, id, fun now => ⟨now, rfl, id⟩⟩
    exact waited.offered
  · next completion world answered =>
    have answers : playing.polled sink = some completion := by
      rw [polled, polls]
      exact congrArg Prod.fst answered
    dsimp only
    generalize currentHostTick clock world now = tick
    have waited : Turns produces (playing.PollLoses sink) playing playing.offered
        { playing with world := tick.2 } := kept.still ⟨rfl, id, fun now => ⟨now, rfl, id⟩⟩
    have settled : Moves produces (False ∨ LosesBytes playing.pump completion)
        { playing with world := tick.2 } playing.offered
        ({ playing with world := tick.2 }.completePending sink completion tick.1 false) none :=
      Kept.completePending sink waited.kept completion tick.1 false
    rw [settled.kept.offered]
    refine waited.moves.trans (settled.mono id fun lost => ?_)
    exact ⟨completion, answers, lost.resolve_left id⟩

section

variable (kept : playing.Kept none)

include kept

theorem Kept.retryClose (now : Nat) (clock : Option (World → Nat × World)) :
    Moves produces loses playing none (playing.retryClose sink now clock) none := by
  unfold Playing.retryClose
  split
  · exact kept.refl
  have closed : Turns produces loses playing none (playing.closeSink sink) :=
    kept.still (closeSink_still sink playing)
  dsimp only
  split
  · exact closed.moves.trans (closed.kept.idle rfl closed.kept.quiet)
  · exact closed.moves

theorem Kept.queryProgress (query : World → Int × World) (now : Nat)
    (clock : Option (World → Nat × World)) :
    Moves produces loses playing none (playing.queryProgress query now clock) none := by
  unfold Playing.queryProgress
  dsimp only
  split
  · exact kept.idle rfl (by exact nofun)
  split
  · have asked : Turns produces loses playing none { playing with
        pump := { playing.pump.noteServiceOperation with
          progress_due_tick := addSaturating
            (currentHostTick clock (query playing.world).2 now).1
            (max (playing.pump.noteServiceOperation.quantum_ticks / 2) 1) }
        world := (currentHostTick clock (query playing.world).2 now).2 } :=
      kept.still (.idle rfl kept.quiet kept.quiet)
    exact asked.moves.trans (asked.kept.degrade (fun now => absurd now kept.quiet) _).moves
  · exact kept.idle rfl kept.quiet

theorem Kept.writeQuantum (idle : playing.pump.pending_operation = none) {copied : Nat}
    (fits : copied ≤ playing.pump.scratch.length)
    (front : playing.pump.scratch.take copied <+: playing.pump.queue.contents) (now : Nat)
    (clock : Option (World → Nat × World)) :
    Moves produces loses playing none (playing.writeQuantum sink copied now clock)
      (playing.writeQuantum sink copied now clock).offered := by
  have submitted : Moves produces loses playing none (playing.submitQuantum sink copied).2
      (playing.submitQuantum sink copied).2.offered := kept.submitQuantum sink idle fits front
  have later : ∀ after, Still (playing.submitQuantum sink copied).2 after →
      Moves produces loses playing none after after.offered := fun after still =>
    submitted.trans (submitted.kept.still still).offered
  unfold Playing.writeQuantum
  dsimp only
  split
  · split
    · exact later _ ⟨rfl, id, fun now => ⟨now, rfl, id⟩⟩
    · exact later _ ⟨rfl, id, fun now => ⟨now, rfl, id⟩⟩
  · exact later _ ⟨rfl, id, fun now => ⟨now, rfl, id⟩⟩
  · exact submitted
  · exact submitted

theorem Kept.playDue (idle : playing.pump.pending_operation = none)
    (now : Nat) (clock : Option (World → Nat × World)) :
    Moves produces loses playing none (playing.playDue sink now clock)
      (playing.playDue sink now clock).offered := by
  unfold Playing.playDue
  split
  · rw [kept.offered]
    exact kept.refl
  dsimp only
  obtain ⟨front, whole, fits⟩ := kept.data.sound.peek playing.pump.scratch.length
  change playing.pump.queue.peek _ <+: playing.pump.queue.contents at front
  change playing.pump.queue.frame_bytes ∣ (playing.pump.queue.peek _).length at whole
  change (playing.pump.queue.peek _).length ≤ _ at fits
  generalize playing.pump.queue.peek playing.pump.scratch.length = payload at front whole fits
  have painted : Moves produces loses playing none
      { playing with pump.scratch := payload ++ playing.pump.scratch.drop payload.length } none := by
    refine kept.repaint rfl kept.data.sound rfl rfl (fun nothing => ?_) kept.quiet
    rw [nothing] at fits ⊢
    rw [List.length_eq_zero_iff.mp (Nat.eq_zero_of_le_zero fits)]
    rfl
  have quiet := painted.kept.quiet
  have later : ∀ {after}, Moves produces loses
      { playing with pump.scratch := payload ++ playing.pump.scratch.drop payload.length } none
      after none → Moves produces loses playing none after after.offered := by
    intro after moves
    rw [moves.kept.offered]
    exact painted.trans moves
  split
  · split
    · exact later (painted.kept.idle rfl quiet)
    · exact later (painted.kept.idle rfl quiet)
  split
  · exact later (painted.kept.suppressSilence whole front.length_le now)
  split
  · exact later (painted.kept.tryOpen sink idle now clock).moves
  · refine painted.trans (painted.kept.writeQuantum sink idle ?_ ?_ now clock)
    · rw [List.length_append]
      exact Nat.le_add_right _ _
    · rw [List.take_left]
      exact front

end

theorem Kept.pumpReady (kept : playing.Kept playing.offered) (now : Nat) (running : Bool)
    (clock : Option (World → Nat × World)) :
    Moves produces loses playing playing.offered (playing.pumpReady sink now running clock)
      (playing.pumpReady sink now running clock).offered := by
  unfold Playing.pumpReady
  dsimp only
  split
  · exact kept.refl
  next idle =>
  have idle := not_not.mp idle
  have offer_eq := offered_idle idle
  split
  · rw [offer_eq] at kept ⊢
    have retried : Moves produces loses playing none (playing.retryClose sink now clock) none :=
      kept.retryClose sink now clock
    rw [retried.kept.offered]
    exact retried
  split
  · exact kept.refl
  split
  · exact (kept.enterIdle sink).offered
  split
  · exact kept.refl
  rw [offer_eq] at kept ⊢
  split
  · next query _ =>
    have asked : Moves produces loses playing none (playing.queryProgress query now clock) none :=
      kept.queryProgress query now clock
    rw [asked.kept.offered]
    exact asked
  · exact kept.playDue sink idle now clock

/-- The receipt that the end of the sink brings. -/
def finished (playing : Playing World) : Option Completion :=
  match sink.bind AudioSink.finish_fn with
  | none => none
  | some finish => (finish playing.world).1.completion

/-- The receipt that the end of the sink brings loses bytes. -/
def FinishLoses (playing : Playing World) : Prop :=
  ∃ completion ∈ playing.finished sink, LosesBytes playing.pump completion

theorem Kept.takeFinish (kept : playing.Kept playing.offered)
    (opened : playing.pump.state ≠ .closed) (finish : Finish) :
    Moves produces (∃ completion ∈ finish.completion, LosesBytes playing.pump completion) playing
      playing.offered (playing.takeFinish sink finish)
      (playing.takeFinish sink finish).offered := by
  unfold Playing.takeFinish
  dsimp only
  cases answered : finish.completion with
  | none =>
    have progressed : Turns produces
        (∃ completion ∈ (none : Option Completion), LosesBytes playing.pump completion) playing
        playing.offered (playing.takeProgress finish.progress) :=
      kept.takeProgress (fun _ => opened) finish.progress
    refine progressed.trans (progressed.kept.still ?_) |>.offered
    exact ⟨rfl, id, fun now => ⟨now, rfl, id⟩⟩
  | some completion =>
    have settled : Moves produces
        (False ∨ LosesBytes playing.pump completion) playing playing.offered
        (playing.completePending sink completion 0 true) none :=
      Kept.completePending sink kept completion 0 true
    have told := settled.mono id fun lost =>
      (⟨completion, rfl, lost.resolve_left id⟩ :
        ∃ other ∈ some completion, LosesBytes playing.pump other)
    have progressed := told.trans (told.kept.takeProgress
      (fun now => absurd now told.kept.quiet) finish.progress).moves
    refine .offered (progressed.trans ?_)
    exact progressed.kept.idle rfl progressed.kept.quiet

theorem Kept.endSink (kept : playing.Kept playing.offered) (opened : playing.pump.state ≠ .closed) :
    Moves produces (playing.FinishLoses sink) playing playing.offered (playing.endSink sink)
      (playing.endSink sink).offered := by
  unfold Playing.endSink
  split
  · exact kept.refl
  next device =>
  split
  · next finish ends =>
    dsimp only
    have moved : Turns produces (playing.FinishLoses (some device)) playing playing.offered
        { playing with world := (finish playing.world).2 } :=
      kept.still ⟨rfl, id, fun now => ⟨now, rfl, id⟩⟩
    have taken := @Kept.takeFinish World produces
      { playing with world := (finish playing.world).2 } _ (some device) moved.kept opened
      (finish playing.world).1
    refine moved.offered.trans (taken.mono id ?_)
    rintro ⟨completion, answered, lost⟩
    refine ⟨completion, ?_, lost⟩
    rw [finished, Option.bind_some, ends]
    exact answered
  · split
    · exact (kept.still (closeSink_still _ playing)).offered
    · exact kept.refl

theorem Kept.close (kept : playing.Kept playing.offered) :
    Moves produces (playing.FinishLoses sink) playing playing.offered (playing.close sink)
      (playing.close sink).offered := by
  unfold Playing.close
  split
  · exact kept.refl
  next opened =>
  have ended : Moves produces (playing.FinishLoses sink) playing playing.offered
      (playing.endSink sink) (playing.endSink sink).offered :=
    kept.endSink sink (not_or.mp opened).1
  exact ended.trans ended.kept.closeQueue

end Sinks

theorem Kept.start (kept : playing.Kept playing.offered)
    (empty : playing.pump.queue.contents = []) :
    Moves produces loses playing playing.offered { playing with pump := playing.pump.start }
      { playing with pump := playing.pump.start }.offered := by
  unfold AudioPump.start
  split
  · exact kept.refl
  have same : playing.pump.queue.clear.contents = playing.pump.queue.contents :=
    PcmQueue.Sound.clear_contents.trans empty.symm
  have counted := kept.data.counted
  have ordered := kept.data.ordered
  refine ⟨⟨⟨PcmQueue.Sound.clear, kept.data.frame, ⟨counted.generated, counted.submitted,
    counted.suppressed, counted.discarded⟩, ?_⟩, kept.offers, fun now opened => ?_⟩, ?_, rfl⟩
  · change Ledger.Ordered playing.pump.queue.frame_bytes
      ⟨playing.pump.queue.clear.contents, playing.offered, entries playing.log⟩
    rw [same]
    exact ordered
  · change ∀ payload ∈ playing.offered, payload <+: playing.pump.queue.clear.contents
    rw [same]
    exact kept.intact now opened
  · change Ledger.Path _ _ _ ⟨playing.pump.queue.contents, playing.offered, entries playing.log⟩
      ⟨playing.pump.queue.clear.contents, playing.offered, entries playing.log⟩
    rw [same]

end Playing

end R4OS.Subsystem
