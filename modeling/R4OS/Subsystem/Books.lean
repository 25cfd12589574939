import R4OS.Subsystem.Runtime

/-!
# The books of the audio pump

Every operation of a pump moves PCM by steps of a ledger.  The counters of the pump are the sums of
these steps.
-/

namespace R4OS.Subsystem

open Buffer Text

variable (log : List AudioEvent)

/-- The moves of PCM in a log. -/
def entries (log : List AudioEvent) : List (Entry UInt8) :=
  log.filterMap fun event => match event with
    | .pcm entry => some entry
    | _ => none

@[simp] theorem entries_pcm (entry : Entry UInt8) :
    entries (log ++ [.pcm entry]) = entries log ++ [entry] := by
  simp [entries]

@[simp] theorem entries_reset :
    entries (log ++ [.reset]) = entries log := by
  simp [entries]

@[simp] theorem entries_feedback (report : AudioFeedback) :
    entries (log ++ [.feedback report]) = entries log := by
  simp [entries]

/-- The part of a pump that PCM and its counters are in. -/
structure AudioData where
  config : AudioConfig
  queue : PcmQueue
  scratch : Bytes
  generated_bytes : UInt64
  submitted_bytes : UInt64
  suppressed_bytes : UInt64
  discarded_bytes : UInt64
  entries : List (Entry UInt8)

namespace Playing

variable {World : Type}

def data (playing : Playing World) : AudioData where
  config := playing.pump.config
  queue := playing.pump.queue
  scratch := playing.pump.scratch
  generated_bytes := playing.pump.stats.generated_bytes
  submitted_bytes := playing.pump.stats.submitted_bytes
  suppressed_bytes := playing.pump.stats.suppressed_bytes
  discarded_bytes := playing.pump.stats.discarded_bytes
  entries := Subsystem.entries playing.log

/-- A write is under way. -/
def Writing (playing : Playing World) : Prop := playing.pump.pending_operation = some .write

instance (playing : Playing World) : Decidable playing.Writing :=
  inferInstanceAs (Decidable (_ = _))

/-- What the sink was offered by the write under way. -/
def offered (playing : Playing World) : Option Bytes :=
  if playing.Writing then some (playing.pump.scratch.take playing.pump.pending_bytes) else none

end Playing

/-- The ledger of a pump, when the sink was offered some bytes. -/
def AudioData.ledger (data : AudioData) (offer : Option Bytes) : Ledger UInt8 :=
  ⟨data.queue.contents, offer, data.entries⟩

/-- Enter a move of PCM. -/
def AudioData.enter (data : AudioData) (entry : Entry UInt8) : AudioData :=
  let data := { data with entries := data.entries ++ [entry] }
  match entry with
  | .produced items =>
    { data with generated_bytes := data.generated_bytes + .ofNat items.length }
  | .accepted items =>
    { data with submitted_bytes := data.submitted_bytes + .ofNat items.length }
  | .suppressed count => { data with suppressed_bytes := data.suppressed_bytes + .ofNat count }
  | .discarded count => { data with discarded_bytes := data.discarded_bytes + .ofNat count }

def AudioData.put (data : AudioData) (queue : PcmQueue) (scratch : Bytes) : AudioData :=
  { data with queue, scratch }

/-- The counters are the sums of the moves. -/
structure AudioData.Counted (data : AudioData) : Prop where
  generated : data.generated_bytes = .ofNat (producedItems data.entries).length
  submitted : data.submitted_bytes = .ofNat (acceptedItems data.entries).length
  suppressed : data.suppressed_bytes = .ofNat (suppressedCount data.entries)
  discarded : data.discarded_bytes = .ofNat (discardedCount data.entries)

theorem AudioData.Counted.enter {data : AudioData} (counted : data.Counted) (entry : Entry UInt8) :
    (data.enter entry).Counted := by
  obtain ⟨generated, submitted, suppressed, discarded⟩ := counted
  cases entry with
  | produced items | accepted items | suppressed count | discarded count =>
    constructor <;> simp [AudioData.enter, Entry.producedItems, Entry.acceptedItems,
      Entry.suppressedCount, Entry.discardedCount, UInt64.ofNat_add, *]

/-- The counters are the sums of the moves, and the moves keep the order of the bytes. -/
structure AudioData.Kept (data : AudioData) (offer : Option Bytes) : Prop where
  sound : data.queue.Sound
  frame : data.scratch = [] ∨ data.config.frameBytes = .ok data.queue.frame_bytes
  counted : data.Counted
  ordered : (data.ledger offer).Ordered data.queue.frame_bytes

/-- The books of a pump, when the sink was offered some bytes. -/
structure Playing.Kept {World : Type} (playing : Playing World) (offer : Option Bytes) : Prop where
  data : playing.data.Kept offer
  offers : playing.Writing → offer = some (playing.pump.scratch.take playing.pump.pending_bytes) ∧
    playing.pump.pending_bytes ≤ playing.pump.scratch.length
  intact : playing.Writing → playing.pump.state ≠ .closed →
    ∀ payload ∈ offer, payload <+: playing.pump.queue.contents

/-- Steps of the books from one offer to another one. -/
structure Moves {World : Type} (produces loses : Prop) (before : Playing World)
    (offer : Option Bytes) (after : Playing World) (next : Option Bytes) : Prop where
  kept : after.Kept next
  path : Ledger.Path before.pump.queue.frame_bytes produces loses (before.data.ledger offer)
    (after.data.ledger next)
  frame : after.pump.queue.frame_bytes = before.pump.queue.frame_bytes

/-- Steps of the books in which a write under way goes on. -/
structure Turns {World : Type} (produces loses : Prop) (before : Playing World)
    (offer : Option Bytes) (after : Playing World) : Prop where
  moves : Moves produces loses before offer after offer
  writes : before.Writing → after.Writing

/-- The data stays, and a write under way goes on. -/
structure Still {World : Type} (before after : Playing World) : Prop where
  data : after.data = before.data
  writes : before.Writing → after.Writing
  writing : after.Writing → before.Writing ∧
    after.pump.pending_bytes = before.pump.pending_bytes ∧
    (after.pump.state ≠ .closed → before.pump.state ≠ .closed)

section Rules

variable {World : Type} {produces loses : Prop} {before middle after playing : Playing World}
  {offer next last : Option Bytes}

theorem Playing.Kept.refl (kept : playing.Kept offer) :
    Moves produces loses playing offer playing offer :=
  ⟨kept, .refl, rfl⟩

theorem Moves.trans (first : Moves produces loses before offer middle next)
    (second : Moves produces loses middle next after last) :
    Moves produces loses before offer after last :=
  ⟨second.kept, first.path.trans (first.frame ▸ second.path), second.frame.trans first.frame⟩

theorem Moves.mono {produces' loses' : Prop} (more : produces → produces') (worse : loses → loses')
    (moves : Moves produces loses before offer after next) :
    Moves produces' loses' before offer after next :=
  ⟨moves.kept, moves.path.mono more worse, moves.frame⟩

theorem Turns.refl (kept : playing.Kept offer) : Turns produces loses playing offer playing :=
  ⟨kept.refl, id⟩

theorem Turns.trans (first : Turns produces loses before offer middle)
    (second : Turns produces loses middle offer after) :
    Turns produces loses before offer after :=
  ⟨first.moves.trans second.moves, second.writes ∘ first.writes⟩

theorem Turns.kept (turns : Turns produces loses before offer after) : after.Kept offer :=
  turns.moves.kept

theorem Turns.offered (turns : Turns produces loses before before.offered after) :
    Moves produces loses before before.offered after after.offered := by
  have same : after.offered = before.offered := by
    by_cases now : before.Writing
    · rw [(turns.kept.offers (turns.writes now)).1, Playing.offered, if_pos (turns.writes now)]
    · have offer : before.offered = none := if_neg now
      have idle : ¬ after.Writing := fun later => by
        have known := (turns.kept.offers later).1
        rw [offer] at known
        cases known
      rw [offer, Playing.offered, if_neg idle]
  rw [same]
  exact turns.moves

theorem Playing.writing_idle (idle : playing.pump.pending_operation = none) : ¬ playing.Writing := by
  rw [Writing, idle]
  exact nofun

theorem Playing.offered_idle (idle : playing.pump.pending_operation = none) :
    playing.offered = none :=
  if_neg (writing_idle idle)

theorem Playing.Kept.quiet (kept : playing.Kept none) : ¬ playing.Writing := by
  intro now
  cases (kept.offers now).1

theorem Playing.Kept.offered (kept : playing.Kept none) : playing.offered = none :=
  if_neg kept.quiet

theorem Still.refl (playing : Playing World) : Still playing playing :=
  ⟨rfl, id, fun now => ⟨now, rfl, id⟩⟩

theorem Still.trans (first : Still before middle) (second : Still middle after) :
    Still before after := by
  refine ⟨second.data.trans first.data, second.writes ∘ first.writes, fun now => ?_⟩
  obtain ⟨now, bytes, opened⟩ := second.writing now
  obtain ⟨now, bytes', opened'⟩ := first.writing now
  exact ⟨now, bytes.trans bytes', opened' ∘ opened⟩

theorem Still.idle (data : after.data = before.data) (quiet : ¬ before.Writing)
    (idle : ¬ after.Writing) : Still before after :=
  ⟨data, fun now => absurd now quiet, fun now => absurd now idle⟩

theorem Playing.Kept.still (kept : playing.Kept offer) (still : Still playing after) :
    Turns produces loses playing offer after := by
  have scratch : after.pump.scratch = playing.pump.scratch := congrArg AudioData.scratch still.data
  have queue : after.pump.queue = playing.pump.queue := congrArg AudioData.queue still.data
  refine ⟨⟨⟨still.data ▸ kept.data, fun now => ?_, fun now opened => ?_⟩, ?_, ?_⟩, still.writes⟩
  · obtain ⟨before, bytes, -⟩ := still.writing now
    rw [scratch, bytes]
    exact kept.offers before
  · obtain ⟨before, -, opened_before⟩ := still.writing now
    rw [queue]
    exact kept.intact before (opened_before opened)
  · rw [still.data]
  · rw [queue]

theorem Playing.Kept.idle (kept : playing.Kept offer) (data : after.data = playing.data)
    (idle : ¬ after.Writing) : Moves produces loses playing offer after offer := by
  have queue : after.pump.queue = playing.pump.queue := congrArg AudioData.queue data
  refine ⟨⟨data ▸ kept.data, fun now => absurd now idle, fun now => absurd now idle⟩, ?_, ?_⟩
  · rw [data]
  · rw [queue]

theorem Moves.offered (moves : Moves produces loses before offer after none) :
    Moves produces loses before offer after after.offered := by
  rw [moves.kept.offered]
  exact moves

theorem Playing.Kept.reoffer (kept : playing.Kept offer) (data : after.data = playing.data)
    (step : Ledger.Step playing.pump.queue.frame_bytes produces loses (playing.data.ledger offer)
      (playing.data.ledger next))
    (offers : after.Writing → next = some (after.pump.scratch.take after.pump.pending_bytes) ∧
      after.pump.pending_bytes ≤ after.pump.scratch.length)
    (intact : ∀ payload ∈ next, payload <+: playing.pump.queue.contents) :
    Moves produces loses playing offer after next := by
  have queue : after.pump.queue = playing.pump.queue := congrArg AudioData.queue data
  refine ⟨⟨⟨?_, ?_, ?_, ?_⟩, offers, fun _ _ => queue ▸ intact⟩, ?_, by rw [queue]⟩
  · exact data ▸ kept.data.sound
  · exact data ▸ kept.data.frame
  · exact data ▸ kept.data.counted
  · exact data ▸ step.ordered kept.data.ordered
  · rw [data]
    exact .single step

theorem Playing.Kept.enterWith (kept : playing.Kept offer) {entry : Entry UInt8} {queue : PcmQueue}
    {scratch : Bytes} (data : after.data = (playing.data.enter entry).put queue scratch)
    (step : Ledger.Step playing.pump.queue.frame_bytes produces loses (playing.data.ledger offer)
      ⟨queue.contents, next, playing.data.entries ++ [entry]⟩)
    (sound : queue.Sound) (frame_bytes : queue.frame_bytes = playing.pump.queue.frame_bytes)
    (empty : playing.pump.scratch = [] → scratch = [])
    (offers : after.Writing → next = some (after.pump.scratch.take after.pump.pending_bytes) ∧
      after.pump.pending_bytes ≤ after.pump.scratch.length)
    (closed : after.Writing → after.pump.state = .closed) :
    Moves produces loses playing offer after next := by
  have config_eq : after.pump.config = playing.pump.config := by
    have known := congrArg AudioData.config data
    cases entry <;> exact known
  have queue_eq : after.pump.queue = queue := congrArg AudioData.queue data
  have entries_eq : after.data.entries = playing.data.entries ++ [entry] := by
    have known := congrArg AudioData.entries data
    cases entry <;> exact known
  have ledger_eq : after.data.ledger next =
      ⟨queue.contents, next, playing.data.entries ++ [entry]⟩ := by
    rw [AudioData.ledger, entries_eq, show after.data.queue = queue from queue_eq]
  refine ⟨⟨⟨?_, ?_, ?_, ?_⟩, offers, fun now opened => absurd (closed now) opened⟩, ?_, ?_⟩
  · rw [show after.data.queue = queue from queue_eq]
    exact sound
  · refine kept.data.frame.imp (fun nothing => ?_) fun known => ?_
    · exact (congrArg AudioData.scratch data).trans (empty nothing)
    · change after.pump.config.frameBytes = .ok after.pump.queue.frame_bytes
      rw [config_eq, queue_eq, frame_bytes]
      exact known
  · have counted := kept.data.counted.enter entry
    rw [data]
    exact ⟨counted.generated, counted.submitted, counted.suppressed, counted.discarded⟩
  · rw [ledger_eq, show after.data.queue = queue from queue_eq, frame_bytes]
    exact step.ordered kept.data.ordered
  · rw [ledger_eq]
    exact .single step
  · rw [queue_eq, frame_bytes]

theorem Playing.Kept.enter (kept : playing.Kept offer) {entry : Entry UInt8} {queue : PcmQueue}
    {scratch : Bytes} (data : after.data = (playing.data.enter entry).put queue scratch)
    (step : Ledger.Step playing.pump.queue.frame_bytes produces loses (playing.data.ledger offer)
      ⟨queue.contents, next, playing.data.entries ++ [entry]⟩)
    (sound : queue.Sound) (frame_bytes : queue.frame_bytes = playing.pump.queue.frame_bytes)
    (empty : playing.pump.scratch = [] → scratch = []) (idle : ¬ after.Writing) :
    Moves produces loses playing offer after next :=
  kept.enterWith data step sound frame_bytes empty (fun now => absurd now idle)
    fun now => absurd now idle

theorem Playing.Kept.repaint (kept : playing.Kept none) {queue : PcmQueue} {scratch : Bytes}
    (data : after.data = playing.data.put queue scratch) (sound : queue.Sound)
    (contents : queue.contents = playing.pump.queue.contents)
    (frame_bytes : queue.frame_bytes = playing.pump.queue.frame_bytes)
    (empty : playing.pump.scratch = [] → scratch = []) (idle : ¬ after.Writing) :
    Moves produces loses playing none after none := by
  have queue_eq : after.pump.queue = queue := congrArg AudioData.queue data
  have ledger_eq : after.data.ledger none = playing.data.ledger none := by
    rw [data]
    simp only [AudioData.ledger, AudioData.put, contents]
    rfl
  have counted := kept.data.counted
  refine ⟨⟨⟨?_, ?_, ?_, ?_⟩, fun now => absurd now idle, fun now => absurd now idle⟩, ?_, ?_⟩
  · rw [data]
    exact sound
  · refine kept.data.frame.imp (fun nothing => ?_) fun known => ?_
    · exact (congrArg AudioData.scratch data).trans (empty nothing)
    · rw [data]
      exact known.trans (congrArg Except.ok frame_bytes.symm)
  · rw [data]
    exact ⟨counted.generated, counted.submitted, counted.suppressed, counted.discarded⟩
  · rw [ledger_eq, show after.data.queue = queue from queue_eq, frame_bytes]
    exact kept.data.ordered
  · rw [ledger_eq]
  · rw [queue_eq, frame_bytes]

end Rules

end R4OS.Subsystem
