import R4OS.Subsystem.Books

/-!
# Every operation keeps the books

What the operations of a pump do to the PCM is a path of ledger steps.  The only step that settles
bytes twice is the receipt of a write whose bytes were dropped before.
-/

namespace R4OS.Subsystem

open Buffer Text

namespace Playing

variable {World : Type} {produces loses : Prop} {playing : Playing World} {offer : Option Bytes}

theorem data_record (playing : Playing World) (entry : Entry UInt8) :
    (playing.record entry).data =
      { playing.data with entries := playing.data.entries ++ [entry] } := by
  simp [data, record, entries_pcm]

theorem Kept.discardQueue (kept : playing.Kept offer) (idle : ¬ playing.Writing) :
    Turns produces loses playing offer playing.discardQueue := by
  have length_eq : playing.pump.queue.contents.length = playing.pump.queue.len :=
    kept.data.sound.contents_length
  have data_eq : playing.discardQueue.data =
      (playing.data.enter (.discarded playing.pump.queue.contents.length)).put
        playing.pump.queue.clear playing.pump.scratch := by
    rw [length_eq, Playing.discardQueue, data_record]
    rfl
  refine ⟨kept.enter data_eq ?_ PcmQueue.Sound.clear rfl id idle, id⟩
  rw [PcmQueue.Sound.clear_contents]
  exact .discard

theorem wantClose_still (playing : Playing World) : Still playing playing.wantClose := by
  unfold wantClose
  split
  · exact ⟨rfl, id, fun now => ⟨now, rfl, id⟩⟩
  · exact .refl _

theorem wantClose_state (playing : Playing World) :
    playing.wantClose.pump.state = playing.pump.state := by
  unfold wantClose
  split <;> rfl

theorem Kept.dropWaiting (kept : playing.Kept offer) :
    Turns produces loses playing offer playing.dropWaiting := by
  unfold Playing.dropWaiting
  split
  · exact kept.still ⟨rfl, id, fun now => ⟨now, rfl, id⟩⟩
  · next idle => exact kept.discardQueue (writing_idle (not_not.mp idle))

theorem dropWaiting_state (playing : Playing World) :
    playing.dropWaiting.pump.state = playing.pump.state := by
  unfold dropWaiting
  split <;> rfl

theorem degrade_pending (playing : Playing World) (error_code : Int) :
    (playing.degrade error_code).pump.pending_operation = playing.pump.pending_operation := by
  unfold degrade dropWaiting wantClose
  dsimp only
  split
  · split <;> rfl
  · split <;> rfl

theorem degrade_scratch (playing : Playing World) (error_code : Int) :
    (playing.degrade error_code).pump.scratch = playing.pump.scratch := by
  unfold degrade dropWaiting wantClose
  dsimp only
  split
  · split <;> rfl
  · split <;> rfl

/-- Giving a stream up drops what waits, unless an operation is under way. -/
theorem Kept.degrade (kept : playing.Kept offer)
    (opened : playing.Writing → playing.pump.state ≠ .closed) (error_code : Int) :
    Turns produces loses playing offer (playing.degrade error_code) := by
  have closing : Turns produces loses playing offer playing.wantClose :=
    kept.still playing.wantClose_still
  have dropped := closing.trans closing.kept.dropWaiting
  refine dropped.trans (dropped.kept.still ⟨rfl, id, fun now => ⟨now, rfl, fun _ => ?_⟩⟩)
  rw [dropWaiting_state, wantClose_state]
  refine opened ?_
  have before : playing.wantClose.dropWaiting.Writing := now
  unfold Playing.dropWaiting at before
  split at before
  · exact (playing.wantClose_still.writing before).1
  · exact (playing.wantClose_still.writing before).1

theorem becomeReady_still (playing : Playing World) : Still playing playing.becomeReady := by
  unfold becomeReady
  split
  · next working => exact ⟨rfl, id, fun now => ⟨now, rfl, fun _ => working.2.2⟩⟩
  · exact .refl _

section Sinks

variable [AudioAbi] (sink : Option (AudioSink World))

theorem completeClose_data (playing : Playing World) (rc : Int) :
    (playing.completeClose sink rc).data = playing.data := by
  unfold completeClose
  split
  · dsimp only
    split <;> rfl
  · dsimp only
    split <;> rfl

theorem completeClose_pending (playing : Playing World) (rc : Int) :
    (playing.completeClose sink rc).pump.pending_operation = playing.pump.pending_operation := by
  unfold completeClose
  split
  · dsimp only
    split <;> rfl
  · dsimp only
    split <;> rfl

theorem completeClose_still (idle : ¬ playing.Writing) (rc : Int) :
    Still playing (playing.completeClose sink rc) := by
  refine .idle (completeClose_data sink playing rc) idle ?_
  rwa [Writing, completeClose_pending]

theorem closeSink_still (playing : Playing World) : Still playing (playing.closeSink sink) := by
  unfold closeSink
  split
  · exact ⟨rfl, id, fun now => ⟨now, rfl, id⟩⟩
  next idle =>
  have idle := writing_idle (not_not.mp idle)
  split
  · exact .idle rfl idle idle
  split
  · exact .idle rfl idle idle
  · next device =>
    dsimp only
    split
    · exact .idle rfl idle nofun
    · have noted : Still playing { playing with
          pump := playing.pump.noteServiceOperation, world := (device.close_fn playing.world).2 } :=
        .idle rfl idle idle
      exact noted.trans (completeClose_still _ (by exact idle) _)

theorem closeIdle_still (playing : Playing World) : Still playing (playing.closeIdle sink) := by
  unfold closeIdle
  split
  · split
    · exact closeSink_still sink playing
    · exact ⟨rfl, id, fun now => ⟨now, rfl, id⟩⟩
  · exact .refl _

theorem Kept.enterIdle (kept : playing.Kept offer) :
    Turns produces loses playing offer (playing.enterIdle sink) := by
  have dropped : Turns produces loses playing offer
      (if playing.pump.pending_operation ≠ none then
        { playing with pump.discard_after_pending := true, pump.close_pending := true }
      else playing.discardQueue) := by
    split
    · exact kept.still ⟨rfl, id, fun now => ⟨now, rfl, id⟩⟩
    · next idle => exact kept.discardQueue (writing_idle (not_not.mp idle))
  refine dropped.trans (dropped.kept.still ?_)
  refine .trans ?_ (.trans (closeIdle_still sink _) (becomeReady_still _))
  exact ⟨rfl, id, fun now => ⟨now, rfl, id⟩⟩

theorem Kept.resumePlayback (kept : playing.Kept offer) (now : Nat) :
    Turns produces loses playing offer (playing.resumePlayback sink now) := by
  unfold Playing.resumePlayback
  split
  · exact .refl kept
  · have idle : Turns produces loses playing offer (playing.enterIdle sink) :=
      kept.enterIdle sink
    exact idle.trans (idle.kept.still ⟨rfl, id, fun now => ⟨now, rfl, id⟩⟩)

theorem Kept.reset (kept : playing.Kept offer) (now : Nat) :
    Turns produces loses playing offer (playing.reset sink now) := by
  have marked : Turns produces loses playing offer { playing with
      pump := { playing.pump with
        feedback_retire_current := true
        progress_record_retired := playing.pump.progress_seen } } :=
    kept.still ⟨rfl, id, fun now => ⟨now, rfl, id⟩⟩
  exact marked.trans (marked.kept.resumePlayback sink now)

theorem Kept.pause (kept : playing.Kept offer) :
    Turns produces loses playing offer (playing.pause sink) := by
  unfold Playing.pause
  split
  · exact .refl kept
  · exact kept.enterIdle sink

theorem Kept.setMuted (kept : playing.Kept offer) (muted : Bool) (now : Nat) :
    Turns produces loses playing offer (playing.setMuted sink muted now) := by
  unfold Playing.setMuted
  split
  · exact .refl kept
  have marked : Turns produces loses playing offer { playing with pump.muted := muted } :=
    kept.still ⟨rfl, id, fun now => ⟨now, rfl, id⟩⟩
  dsimp only
  split
  · exact marked
  split
  · exact marked.trans (marked.kept.enterIdle sink)
  · exact marked.trans (marked.kept.reset sink now)

theorem Kept.completeOpen (kept : playing.Kept offer) (idle : ¬ playing.Writing) (rc : Int)
    (now : Nat) : Turns produces loses playing offer (playing.completeOpen rc now) := by
  unfold Playing.completeOpen
  dsimp only
  split
  · split
    · exact kept.still (.idle rfl idle idle)
    · have noted : Turns produces loses playing offer { playing with
          pump := { playing.pump with
            close_pending := playing.pump.close_pending || playing.pump.sink_open
            last_error := rc } } :=
        kept.still (.idle rfl idle idle)
      exact noted.trans (noted.kept.degrade (fun now => absurd now idle) rc)
  · exact kept.still (.idle rfl idle idle)

theorem Kept.tryOpen (kept : playing.Kept offer) (idle : playing.pump.pending_operation = none)
    (now : Nat) (clock : Option (World → Nat × World)) :
    Turns produces loses playing offer (playing.tryOpen sink now clock) := by
  have quiet := writing_idle idle
  unfold Playing.tryOpen
  split
  · exact .refl kept
  split
  · exact kept.degrade (fun now => absurd now quiet) _
  · next device =>
    dsimp only
    split
    · exact kept.still (.idle rfl quiet nofun)
    · have opened : Turns produces loses playing offer { playing with
          pump := { playing.pump.noteServiceOperation with feedback_retire_current := false }
          world := (currentHostTick clock
            (device.open_fn playing.world playing.pump.config).2 now).2 } :=
        kept.still (.idle rfl quiet quiet)
      exact opened.trans (opened.kept.completeOpen quiet _ _)

theorem absorb_data (playing : Playing World) (record : ProgressState) :
    { playing with pump := playing.pump.absorb record }.data = playing.data := by
  simp only [data, AudioPump.absorb, AudioPump.leaveStream]
  split <;> rfl

theorem Kept.applyProgress (kept : playing.Kept offer)
    (opened : playing.Writing → playing.pump.state ≠ .closed) (record : ProgressState) :
    Turns produces loses playing offer (playing.applyProgress record) := by
  unfold Playing.applyProgress
  split
  · exact .refl kept
  split
  · exact kept.degrade opened _
  · exact kept.still ⟨absorb_data playing record, id, fun now => ⟨now, rfl, id⟩⟩

end Sinks

variable {payload : Bytes}

theorem Kept.withdraw (kept : playing.Kept offer) (idle : ¬ playing.Writing) :
    Moves produces loses playing offer playing none :=
  kept.reoffer rfl .withdraw (fun now => absurd now idle) nofun

theorem noteAccepted_eq (sink : Option (AudioSink World)) (pump : AudioPump) (accepted : Nat) :
    ∃ ready unconfirmed retired, noteAccepted sink pump accepted = { pump with
      progress_ready := ready
      stats := { pump.stats with
        unconfirmed_frames := unconfirmed
        retired_unconfirmed_frames := retired } } := by
  unfold noteAccepted
  split
  · exact ⟨_, _, _, rfl⟩
  split
  · exact ⟨_, _, _, rfl⟩
  · exact ⟨_, _, _, rfl⟩

theorem Kept.takeAccepted (kept : playing.Kept (some payload)) (idle : ¬ playing.Writing)
    (sink : Option (AudioSink World)) {accepted : Nat}
    (first : playing.pump.scratch.take accepted <+: payload)
    (fits : accepted ≤ playing.pump.scratch.length)
    (whole : playing.pump.queue.frame_bytes ∣ accepted)
    (front : loses ∨ payload <+: playing.pump.queue.contents) :
    Moves produces loses playing (some payload) (playing.takeAccepted sink accepted) none := by
  have length_eq : (playing.pump.scratch.take accepted).length = accepted := by
    rw [List.length_take, min_eq_left fits]
  have whole_len : playing.pump.queue.frame_bytes ∣ playing.pump.queue.len := by
    have held := kept.data.ordered.held
    rwa [show (playing.data.ledger (some payload)).held.length = playing.pump.queue.len from
      kept.data.sound.contents_length] at held
  obtain ⟨sound, contents⟩ := PcmQueue.Sound.discard kept.data.sound whole whole_len
  have enter_eq : playing.data.enter (.accepted (playing.pump.scratch.take accepted)) =
      { playing.data with
        submitted_bytes := playing.data.submitted_bytes + .ofNat accepted
        entries := playing.data.entries ++ [.accepted (playing.pump.scratch.take accepted)] } := by
    rw [AudioData.enter, length_eq]
  obtain ⟨ready, unconfirmed, retired, noted⟩ := noteAccepted_eq sink { playing.pump with
    queue := (playing.pump.queue.discard accepted).2
    stats := { playing.pump.stats with
      submitted_bytes := playing.pump.stats.submitted_bytes + .ofNat accepted } } accepted
  have data_eq : (playing.takeAccepted sink accepted).data =
      (playing.data.enter (.accepted (playing.pump.scratch.take accepted))).put
        (playing.pump.queue.discard accepted).2 playing.pump.scratch := by
    rw [Playing.takeAccepted, data_record, enter_eq]
    dsimp only
    rw [noted]
    rfl
  have idle_after : ¬ (playing.takeAccepted sink accepted).Writing := by
    unfold Playing.takeAccepted Writing record
    dsimp only
    rw [noted]
    exact idle
  refine kept.enter data_eq ?_ sound rfl id idle_after
  have step := @Ledger.Step.accept _ playing.pump.queue.frame_bytes produces loses
    (playing.data.ledger (some payload)) payload (playing.pump.scratch.take accepted) rfl first
    (by rwa [length_eq]) front
  rw [length_eq] at step
  have held : (playing.pump.queue.discard accepted).2.contents =
    playing.pump.queue.contents.drop accepted := contents
  rw [held]
  exact step

theorem settleWrite_still (playing : Playing World) (result : SubmitResult) (now : Nat) :
    Still playing { playing with pump := settleWrite playing.pump result now } := by
  unfold settleWrite
  split
  · split
    · exact ⟨rfl, id, fun now => ⟨now, rfl, id⟩⟩
    · exact ⟨rfl, id, fun now => ⟨now, rfl, id⟩⟩
  · exact ⟨rfl, id, fun now => ⟨now, rfl, id⟩⟩
  · exact .refl _
  · exact .refl _

section Writes

variable [AudioAbi] (sink : Option (AudioSink World))

theorem Kept.completeWrite (kept : playing.Kept (some payload)) (idle : ¬ playing.Writing)
    {copied : Nat} (payload_eq : payload = playing.pump.scratch.take copied)
    (fits : copied ≤ playing.pump.scratch.length) (written : Int)
    (front : reportsAccepted playing.pump written copied →
      loses ∨ payload <+: playing.pump.queue.contents) :
    Moves produces loses playing (some payload) (playing.completeWrite sink written copied).2
      none := by
  unfold Playing.completeWrite
  split
  · exact kept.withdraw idle
  next answered =>
  split
  · have given_up : Turns produces loses playing (some payload)
        (playing.degrade (if written < 0 then written else audio_error_unavailable)) :=
      kept.degrade (fun now => absurd now idle) _
    refine given_up.moves.trans (given_up.kept.withdraw ?_)
    rwa [Writing, degrade_pending]
  · next taken =>
    obtain ⟨positive, small, whole⟩ := not_not.mp taken
    have taken_fits : written.toNat ≤ copied := by omega
    have first : playing.pump.scratch.take written.toNat <+: payload := by
      rw [payload_eq]
      exact List.take_prefix_take_left taken_fits
    have accepted : Moves produces loses playing (some payload)
        (playing.takeAccepted sink written.toNat) none :=
      kept.takeAccepted idle sink first (taken_fits.trans fits) (Nat.dvd_of_mod_eq_zero whole)
        (front (by simp [reportsAccepted, answered, positive, small, whole]))
    dsimp only
    split
    · exact accepted
    · exact accepted

theorem Kept.submitQuantum (kept : playing.Kept none)
    (idle : playing.pump.pending_operation = none) {copied : Nat}
    (fits : copied ≤ playing.pump.scratch.length)
    (front : playing.pump.scratch.take copied <+: playing.pump.queue.contents) :
    Moves produces loses playing none (playing.submitQuantum sink copied).2
      (playing.submitQuantum sink copied).2.offered := by
  have quiet := writing_idle idle
  unfold Playing.submitQuantum
  split
  · rw [kept.offered]
    exact kept.refl
  split
  · have given_up : Turns produces loses playing none (playing.degrade audio_error_unavailable) :=
      kept.degrade (fun now => absurd now quiet) _
    rw [given_up.kept.offered]
    exact given_up.moves
  next device =>
  have offering : Ledger.Step playing.pump.queue.frame_bytes produces loses
      (playing.data.ledger none)
      (playing.data.ledger (some (playing.pump.scratch.take copied))) := .offer rfl front
  have first : ∀ payload ∈ some (playing.pump.scratch.take copied),
      payload <+: playing.pump.queue.contents := by
    intro payload member
    rw [← Option.some.inj member]
    exact front
  dsimp only
  split
  · exact kept.reoffer rfl offering (fun _ => ⟨rfl, fits⟩) first
  · have offered : Moves produces loses playing none { playing with
        pump := playing.pump.noteServiceOperation
        world := (device.write_fn playing.world (playing.pump.scratch.take copied)).2 }
        (some (playing.pump.scratch.take copied)) :=
      kept.reoffer rfl offering (fun now => absurd now quiet) first
    have written := offered.trans (offered.kept.completeWrite (some device) (by exact quiet) rfl
      fits (device.write_fn playing.world (playing.pump.scratch.take copied)).1 fun _ => .inr front)
    rw [written.kept.offered]
    exact written

/-- The receipt of a write reports bytes that the queue no longer holds, or drops them first: the pump
was closed before, or does not believe the progress that comes with the receipt. -/
def LosesBytes (pump : AudioPump) (completion : Completion) : Prop :=
  pump.pending_operation = some .write ∧
    reportsAccepted pump (receiptResult pump .write completion) pump.pending_bytes = true ∧
    (pump.state = .closed ∨ ∃ record ∈ completion.progress, pump.refuses record = true)

theorem Kept.discardAfterPending (kept : playing.Kept offer) (idle : ¬ playing.Writing)
    (terminal : Bool) :
    Turns produces loses playing offer (playing.discardAfterPending sink terminal) := by
  unfold Playing.discardAfterPending
  split
  · have marked : Turns produces loses playing offer
        { playing with pump.discard_after_pending := false } :=
      kept.still (.idle rfl idle idle)
    dsimp only
    split
    · exact marked.trans (marked.kept.discardQueue idle)
    · exact marked.trans (marked.kept.enterIdle sink)
  · exact .refl kept

theorem Kept.completeOperation (kept : playing.Kept offer) (idle : ¬ playing.Writing)
    (operation : Operation) (rc : Int) (bytes now : Nat)
    (other : operation ≠ .write → offer = none)
    (write : operation = .write → offer = some (playing.pump.scratch.take bytes) ∧
      bytes ≤ playing.pump.scratch.length ∧ (reportsAccepted playing.pump rc bytes →
        loses ∨ playing.pump.scratch.take bytes <+: playing.pump.queue.contents)) :
    Moves produces loses playing offer (playing.completeOperation sink operation rc bytes now)
      none := by
  have degraded : ∀ error_code, offer = none →
      Moves produces loses playing offer (playing.degrade error_code) none := by
    rintro error_code rfl
    exact (kept.degrade (fun now => absurd now idle) error_code).moves
  cases operation with
  | «open» =>
    cases other nofun
    exact (kept.completeOpen idle rc now).moves
  | write =>
    obtain ⟨rfl, fits, front⟩ := write rfl
    have settled : Moves produces loses playing (some (playing.pump.scratch.take bytes))
        (playing.completeWrite sink rc bytes).2 none :=
      kept.completeWrite sink idle rfl fits rc front
    exact settled.trans (settled.kept.still (settleWrite_still _ _ now)).moves
  | volume => exact degraded _ (other nofun)
  | close =>
    cases other nofun
    exact (kept.still (completeClose_still sink idle rc)).moves
  | fence => exact degraded _ (other nofun)
  | progress =>
    unfold Playing.completeOperation
    dsimp only
    split
    · exact degraded _ (other nofun)
    · cases other nofun
      exact kept.refl

theorem Kept.takeProgress (kept : playing.Kept offer)
    (opened : playing.Writing → playing.pump.state ≠ .closed) (progress : Option ProgressState) :
    Turns produces loses playing offer (playing.takeProgress progress) := by
  unfold Playing.takeProgress
  split
  · exact .refl kept
  · exact kept.applyProgress opened _

theorem takeProgress_pending (playing : Playing World) (progress : Option ProgressState) :
    (playing.takeProgress progress).pump.pending_operation = playing.pump.pending_operation := by
  unfold takeProgress applyProgress
  split
  · rfl
  split
  · rfl
  split
  · exact degrade_pending playing _
  · rfl

theorem takeProgress_scratch (playing : Playing World) (progress : Option ProgressState) :
    (playing.takeProgress progress).pump.scratch = playing.pump.scratch := by
  unfold takeProgress applyProgress
  split
  · rfl
  split
  · rfl
  split
  · exact degrade_scratch playing _
  · rfl

theorem takeProgress_data (playing : Playing World) {progress : Option ProgressState}
    (believed : ∀ record ∈ progress, playing.pump.refuses record = false) :
    (playing.takeProgress progress).data = playing.data := by
  unfold takeProgress applyProgress
  split
  · rfl
  next record =>
  split
  · rfl
  split
  · next refused => exact absurd refused (by rw [believed record rfl]; exact nofun)
  · exact absorb_data playing record

theorem takeReceipt_idle (playing : Playing World) (operation : Operation)
    (completion : Completion) (now : Nat) :
    ¬ (playing.takeReceipt operation completion now).Writing := by
  unfold takeReceipt Writing
  dsimp only
  rw [takeProgress_pending]
  exact nofun

theorem takeReceipt_scratch (playing : Playing World) (operation : Operation)
    (completion : Completion) (now : Nat) :
    (playing.takeReceipt operation completion now).pump.scratch = playing.pump.scratch :=
  takeProgress_scratch _ _

theorem takeReceipt_data (playing : Playing World) (operation : Operation) {completion : Completion}
    (now : Nat) (believed : ∀ record ∈ completion.progress, playing.pump.refuses record = false) :
    (playing.takeReceipt operation completion now).data = playing.data :=
  takeProgress_data { playing with pump := endPending playing.pump operation completion } believed

theorem Kept.takeReceipt (kept : playing.Kept offer) (operation : Operation)
    (completion : Completion) (now : Nat) :
    Moves produces loses playing offer (playing.takeReceipt operation completion now) offer := by
  have ended : Moves produces loses playing offer
      { playing with pump := endPending playing.pump operation completion } offer :=
    kept.idle rfl nofun
  have progressed := ended.trans (ended.kept.takeProgress nofun completion.progress).moves
  exact progressed.trans
    (progressed.kept.idle rfl (takeReceipt_idle playing operation completion now))

theorem Kept.completePending (kept : playing.Kept playing.offered) (completion : Completion)
    (now : Nat) (terminal : Bool) :
    Moves produces (loses ∨ LosesBytes playing.pump completion) playing playing.offered
      (playing.completePending sink completion now terminal) none := by
  unfold Playing.completePending
  split
  · next idle =>
    rw [offered_idle idle] at kept ⊢
    exact kept.refl
  next operation under_way =>
  dsimp only
  have taken : Moves produces (loses ∨ LosesBytes playing.pump completion) playing playing.offered
      (playing.takeReceipt operation completion now) playing.offered :=
    kept.takeReceipt operation completion now
  have settled := taken.trans (taken.kept.completeOperation sink
    (takeReceipt_idle playing operation completion now) operation
    (receiptResult playing.pump operation completion) playing.pump.pending_bytes now ?_ ?_)
  · have quiet := settled.kept.quiet
    have discarded := settled.trans (settled.kept.discardAfterPending sink quiet terminal).moves
    generalize Playing.discardAfterPending sink _ terminal = last at discarded
    have ended : Moves produces (loses ∨ LosesBytes playing.pump completion) playing
        playing.offered { last with pump.retire_pending_feedback := false } none :=
      discarded.trans (discarded.kept.idle rfl discarded.kept.quiet)
    exact ended
  · intro other
    exact if_neg fun now => other (Option.some.inj (under_way.symm.trans now))
  · rintro rfl
    have writing : playing.Writing := under_way
    obtain ⟨offer_eq, fits⟩ := kept.offers writing
    rw [takeReceipt_scratch]
    refine ⟨offer_eq, fits, fun reported => ?_⟩
    have told : reportsAccepted playing.pump (receiptResult playing.pump .write completion)
        playing.pump.pending_bytes = true := by
      unfold reportsAccepted at reported ⊢
      rwa [taken.frame] at reported
    by_cases closed : playing.pump.state = .closed
    · exact .inl (.inr ⟨under_way, told, .inl closed⟩)
    by_cases refused : ∃ record ∈ completion.progress, playing.pump.refuses record = true
    · exact .inl (.inr ⟨under_way, told, .inr refused⟩)
    · have same : (playing.takeReceipt .write completion now).data.queue = playing.pump.queue :=
        congrArg AudioData.queue (takeReceipt_data playing .write now fun record member =>
          Bool.eq_false_iff.mpr fun bad => refused ⟨record, member, bad⟩)
      refine .inr ?_
      rw [show (playing.takeReceipt .write completion now).pump.queue = playing.pump.queue from same]
      exact kept.intact writing closed _ offer_eq

end Writes

end Playing

end R4OS.Subsystem
