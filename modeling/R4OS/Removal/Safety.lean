import R4OS.Removal.Protocol

/-!
# Safety of application removal

What holds at every point the invocations of a removal can be cut at.  The durable record and the
receipts never contradict each other or an earlier report, and an application is deleted under a
durable record of its own plan.
-/

namespace R4OS.Removal

open Crash SystemInventory Text

variable {world : World}

/-- A deletion of an admitted plan under its durable prepared record. -/
def Deletion.Durable (deletion : Deletion) : Prop :=
  deletion.plan ∈ deletion.admits ∧ ∃ record, deletion.stored = some record ∧
    record.phase = .prepared ∧ record.plan.same deletion.plan

/-- The inventory has no entry of the application. -/
def Disk.EntryAbsent (disk : Disk) (plan : Plan) : Prop :=
  ∃ inventory, parseInventory (disk.files .current) = .ok inventory ∧
    entry inventory plan = .ok none

/-- An application that is reported as removed is gone, and its entry too. -/
def Report.Gone (report : Report) : Prop :=
  report.state = .removed →
    report.disk.image report.plan.target = none ∧ report.disk.EntryAbsent report.plan

/-- What removals promise. -/
structure Promise (world : World) : Prop where
  durable : ∀ deletion ∈ world.deletions, deletion.Durable
  gone : ∀ report ∈ world.reports, report.Gone
  /-- No request is both removed and cancelled. -/
  final : ∀ first ∈ world.reports, ∀ second ∈ world.reports,
    first.plan.request_id = second.plan.request_id →
      ¬ (first.state = .removed ∧ second.state = .cancelled)

/-- A plan reuses the identity of the stored removal, which is finished, was another one and has no
receipt yet. -/
def Reused (plan : Plan) (disk : Disk) : Prop :=
  disk.receipts plan.request_id = none ∧ ∃ record, disk.stored = some record ∧
    record.terminal = true ∧ record.plan.request_id = plan.request_id ∧
      record.plan.same plan = false

/-- The phase that a final state stands for. -/
def State.phase : State → Option Phase
  | .waiting_for_close => none
  | .removed => some .completed
  | .cancelled => some .cancelled

/-- The durable record or the receipt of a request is in a phase. -/
def Disk.Settled (disk : Disk) (id : Bytes) (phase : Phase) : Prop :=
  (∃ record, disk.stored = some record ∧ record.plan.request_id = id ∧ record.phase = phase) ∨
    ∃ receipt, disk.receipts id = some receipt ∧ receipt.phase = phase

/-- Records, receipts and reports agree. -/
structure Consistent (world : World) : Prop where
  archived : ∀ id receipt, world.disk.receipts id = some receipt →
    receipt.plan.request_id = id ∧ receipt.terminal = true
  generation : ∀ record, world.disk.stored = some record → record.generation ≠ 0
  /-- A stored record whose request has a receipt is finished in the same way. -/
  agree : ∀ record receipt, world.disk.stored = some record →
    world.disk.receipts record.plan.request_id = some receipt → receipt.phase = record.phase
  settled : ∀ report ∈ world.reports, ∀ phase, report.state.phase = some phase →
    world.disk.Settled report.plan.request_id phase
  durable : ∀ deletion ∈ world.deletions, deletion.Durable
  gone : ∀ report ∈ world.reports, report.Gone

theorem Phase.terminal_iff {record : Record} :
    record.terminal = true ↔ record.phase = .completed ∨ record.phase = .cancelled := by
  simp [Record.terminal]

theorem State.phase_terminal {state : State} {phase : Phase} (final : state.phase = some phase) :
    phase = .completed ∨ phase = .cancelled := by
  cases state <;> simp_all [State.phase]

theorem Consistent.settled_unique (consistent : Consistent world) {id : Bytes}
    {first second : Phase} (one : world.disk.Settled id first)
    (other : world.disk.Settled id second) : first = second := by
  rcases one with ⟨record, stored, rfl, rfl⟩ | ⟨receipt, kept, rfl⟩
  · rcases other with ⟨record', stored', _, rfl⟩ | ⟨receipt', kept', rfl⟩
    · rw [stored] at stored'
      rw [Option.some.inj stored']
    · exact (consistent.agree record receipt' stored kept').symm
  · rcases other with ⟨record', stored', rfl, rfl⟩ | ⟨receipt', kept', rfl⟩
    · exact consistent.agree record' receipt stored' kept
    · rw [kept] at kept'
      rw [Option.some.inj kept']

theorem Consistent.promise (consistent : Consistent world) : Promise world := by
  constructor
  · exact consistent.durable
  · exact consistent.gone
  · rintro first member second member' same ⟨removed, cancelled⟩
    have completed := consistent.settled first member .completed (by rw [removed]; rfl)
    have stopped := consistent.settled second member' .cancelled (by rw [cancelled]; rfl)
    rw [same] at completed
    have equal := consistent.settled_unique completed stopped
    cases equal

theorem Consistent.transfer {after : World} (consistent : Consistent world)
    (stored : after.disk.stored = world.disk.stored)
    (receipts : after.disk.receipts = world.disk.receipts)
    (deletions : ∀ deletion ∈ after.deletions, deletion ∈ world.deletions ∨ deletion.Durable)
    (reports : after.reports = world.reports) : Consistent after := by
  constructor
  · rw [receipts]
    exact consistent.archived
  · rw [stored]
    exact consistent.generation
  · rw [stored, receipts]
    exact consistent.agree
  · unfold Disk.Settled
    rw [stored, receipts, reports]
    exact consistent.settled
  · intro deletion member
    rcases deletions deletion member with old | durable
    · exact consistent.durable deletion old
    · exact durable
  · rw [reports]
    exact consistent.gone

section Calls

variable {world : World}

variable {operation : Operation}

/-- The worlds after a call, with the ghost state of its answer. -/
def World.after (world : World) (operation : Operation)
    (reply : Reply RemoveError Operation.Value operation) (disk : Disk) : World :=
  { world.note operation reply with disk }

variable (consistent : Consistent world)

include consistent

theorem call_keeps (kept : ∀ reply disk, disk = world.disk ∨ disk = effect world.disk operation →
      Consistent (world.after operation reply disk)) :
    Keeps device Consistent
      (fun value after => Answers world.disk operation (.ok value) ∧
        after = world.after operation (.ok value) (effect world.disk operation))
      (call operation) world := by
  apply Keeps.call consistent
  rintro reply after ⟨disk, rfl, ⟨answer, rfl⟩ | ⟨_, ⟨error, rfl⟩, rest⟩⟩
  · refine ⟨kept reply _ (.inr rfl), ?_⟩
    rintro value rfl
    exact ⟨answer, rfl⟩
  · refine ⟨kept _ disk rest, ?_⟩
    rintro value ⟨⟩

theorem read_keeps (unchanged : effect world.disk operation = world.disk)
    (silent : ∀ reply, world.note operation reply = world) :
    Keeps device Consistent
      (fun value after => after = world ∧ Answers world.disk operation (.ok value))
      (call operation) world := by
  have same (reply : Reply RemoveError Operation.Value operation) :
      world.after operation reply world.disk = world := by
    simp [World.after, silent]
  have kept : ∀ reply disk, disk = world.disk ∨ disk = effect world.disk operation →
      Consistent (world.after operation reply disk) := by
    intro reply disk either
    rw [unchanged, or_self] at either
    rw [either, same]
    exact consistent
  apply (call_keeps consistent kept).mono
  rintro value after _ ⟨answer, rfl⟩
  rw [unchanged, same]
  exact ⟨rfl, answer⟩

theorem load_keeps :
    Keeps device Consistent (fun loaded after => after = world ∧ loaded = world.disk.stored)
      (call .load) world := by
  apply (read_keeps consistent rfl fun _ => rfl).mono
  rintro loaded after _ ⟨same, answer⟩
  exact ⟨same, Except.ok.inj answer⟩

theorem readReceipt_keeps (id : Bytes) :
    Keeps device Consistent (fun receipt after => after = world ∧ receipt = world.disk.receipts id)
      (call (.readReceipt id)) world := by
  apply (read_keeps consistent rfl fun _ => rfl).mono
  rintro receipt after _ ⟨same, answer⟩
  exact ⟨same, Except.ok.inj answer⟩

variable (plan : Plan)

theorem absent_keeps :
    Keeps device Consistent
      (fun (gone : Bool) after => after = world ∧ gone = (world.disk.image plan.target).isNone)
      (call (.absent plan)) world := by
  apply (read_keeps consistent rfl fun _ => rfl).mono
  rintro gone after _ ⟨same, answer⟩
  exact ⟨same, Except.ok.inj answer⟩

theorem readFile_keeps (file : InventoryFile) :
    Keeps device Consistent (fun text after => after = world ∧ text = world.disk.files file)
      (call (.readFile file)) world := by
  apply (read_keeps consistent rfl fun _ => rfl).mono
  rintro text after _ ⟨same, answer⟩
  exact ⟨same, Except.ok.inj answer⟩

theorem silent_keeps (unchanged : effect world.disk operation = world.disk)
    (silent : ∀ reply, world.note operation reply = world) :
    Keeps device Consistent (fun _ after => after = world ∧ True) (call operation) world :=
  (read_keeps consistent unchanged silent).mono fun _ _ _ reached => ⟨reached.1, trivial⟩

theorem history_keeps (id : Bytes) :
    Keeps device Consistent (fun prior after => after = world ∧ prior = world.disk.receipts id)
      (history id) world := by
  unfold history
  apply Keeps.require_bind consistent
  intro _
  apply Keeps.bind_same (readReceipt_keeps consistent id)
  rintro receipt found
  cases receipt with
  | none => exact Keeps.pure consistent ⟨rfl, found⟩
  | some record =>
    apply Keeps.require_bind consistent
    intro _
    exact .pure consistent ⟨rfl, found⟩

theorem recordExists_keeps (id : Bytes) :
    Keeps device Consistent
      (fun present after => after = world ∧
        present = world.disk.stored.any fun current => current.plan.request_id = id)
      (recordExists id) world := by
  unfold recordExists
  apply Keeps.bind_same (load_keeps consistent)
  rintro loaded rfl
  cases stored : world.disk.stored with
  | none => exact Keeps.pure consistent ⟨rfl, rfl⟩
  | some current => exact Keeps.pure consistent ⟨rfl, by simp⟩

theorem inventoryAbsent_keeps :
    Keeps device Consistent
      (fun gone after => after = world ∧ (gone = true → world.disk.EntryAbsent plan))
      (inventoryAbsent plan) world := by
  unfold inventoryAbsent
  apply Keeps.bind_same (readFile_keeps consistent .current)
  rintro text rfl
  apply Keeps.computed_bind consistent
  intro inventory parsed
  apply Keeps.computed_bind consistent
  intro found matched
  apply Keeps.pure consistent
  refine ⟨rfl, ?_⟩
  intro missing
  rw [Option.isNone_iff_eq_none.mp missing] at matched
  exact ⟨inventory, parsed, matched⟩

theorem removedBoth_keeps :
    Keeps device Consistent
      (fun gone after => after = world ∧ (gone = true →
        world.disk.image plan.target = none ∧ world.disk.EntryAbsent plan))
      (removedBoth plan) world := by
  unfold removedBoth
  apply Keeps.bind_same (absent_keeps consistent plan)
  rintro gone absent
  cases gone with
  | false =>
    apply Keeps.pure consistent
    refine ⟨rfl, ?_⟩
    rintro ⟨⟩
  | true =>
    apply (inventoryAbsent_keeps consistent plan).mono
    rintro missing after _ ⟨same, entry⟩
    exact ⟨same, fun yes => ⟨Option.isNone_iff_eq_none.mp absent.symm, entry yes⟩⟩

theorem cancelledInTime_keeps :
    Keeps device Consistent (fun _ after => after = world ∧ True) (cancelledInTime plan) world := by
  unfold cancelledInTime
  apply Keeps.bind_same (silent_keeps consistent rfl fun _ => rfl)
  rintro asked _
  cases asked with
  | false => exact Keeps.pure consistent ⟨rfl, trivial⟩
  | true =>
    apply Keeps.bind_same (absent_keeps consistent plan)
    rintro gone _
    exact Keeps.pure consistent ⟨rfl, trivial⟩

end Calls

section Reports

variable {world : World} {plan : Plan}

/-- The world with one more report. -/
def World.add (world : World) (plan : Plan) (state : State) : World :=
  { world with reports := ⟨plan, state, world.disk⟩ :: world.reports }

theorem Consistent.add {state : State} (consistent : Consistent world)
    (settled : ∀ phase, state.phase = some phase → world.disk.Settled plan.request_id phase)
    (gone : state = .removed →
      world.disk.image plan.target = none ∧ world.disk.EntryAbsent plan) :
    Consistent (world.add plan state) := by
  constructor
  · exact consistent.archived
  · exact consistent.generation
  · exact consistent.agree
  · intro report member
    rcases List.mem_cons.mp member with rfl | old
    · exact settled
    · exact consistent.settled report old
  · exact consistent.durable
  · intro report member
    rcases List.mem_cons.mp member with rfl | old
    · exact gone
    · exact consistent.gone report old

theorem Consistent.add_waiting (consistent : Consistent world) :
    Consistent (world.add plan .waiting_for_close) :=
  consistent.add (by rintro _ ⟨⟩) (by rintro ⟨⟩)

theorem repeated_keeps {finished : Record} (consistent : Consistent world)
    (terminal : finished.terminal = true)
    (settled : world.disk.Settled plan.request_id finished.phase) :
    Keeps device Consistent (fun outcome after => Consistent (after.add plan outcome.state))
      (repeated plan finished) world := by
  unfold repeated
  split
  · next cancelled =>
      apply Keeps.pure consistent
      apply consistent.add
      · rintro _ ⟨⟩
        rw [cancelled] at settled
        exact settled
      · rintro ⟨⟩
  · next finishedOther =>
      have completed : finished.phase = .completed :=
        (Phase.terminal_iff.mp terminal).resolve_right finishedOther
      apply Keeps.bind_same (removedBoth_keeps consistent plan)
      intro gone both
      apply Keeps.require_bind consistent
      intro yes
      apply Keeps.pure consistent
      apply consistent.add
      · rintro _ ⟨⟩
        rw [completed] at settled
        exact settled
      · exact fun _ => both yes

end Reports

section Records

variable {world : World} {plan : Plan}

variable {record : Record}

def World.withStored (world : World) (record : Record) : World :=
  { world with disk := { world.disk with stored := some record } }

/-- The durable record is not finished, or has its receipt. -/
def World.Replaceable (world : World) : Prop :=
  ∀ stored, world.disk.stored = some stored → stored.terminal = true →
    ∃ receipt, world.disk.receipts stored.plan.request_id = some receipt

theorem Consistent.withStored (consistent : Consistent world) (generation : record.generation ≠ 0)
    (unarchived : world.disk.receipts record.plan.request_id = none)
    (replaceable : world.Replaceable) :
    Consistent (world.withStored record) := by
  constructor
  · exact consistent.archived
  · rintro _ ⟨⟩
    exact generation
  · rintro _ receipt ⟨⟩ kept
    simp only [World.withStored, unarchived, reduceCtorEq] at kept
  · intro report member phase final
    right
    rcases consistent.settled report member phase final with ⟨stored, found, id, rfl⟩ | kept
    · have terminal := Phase.terminal_iff.mpr (State.phase_terminal final)
      obtain ⟨receipt, kept⟩ := replaceable stored found terminal
      rw [← id]
      exact ⟨receipt, kept, consistent.agree stored receipt found kept⟩
    · exact kept
  · exact consistent.durable
  · exact consistent.gone

theorem persist_keeps (consistent : Consistent world)
    (unarchived : world.disk.receipts record.plan.request_id = none)
    (replaceable : world.Replaceable) :
    Keeps device Consistent
      (fun saved after => saved = { record with generation := record.generation + 1 } ∧
        after = world.withStored saved)
      (persist record) world := by
  unfold persist
  apply Keeps.require_bind consistent
  intro _
  apply Keeps.computed_bind consistent
  rintro _ valid
  have generation : record.generation + 1 ≠ 0 := by
    intro zero
    simp [Record.validate, zero] at valid
  have stored : Consistent (world.withStored { record with generation := record.generation + 1 }) :=
    consistent.withStored generation unarchived replaceable
  apply Keeps.bind (call_keeps consistent ?_)
  · rintro _ after kept ⟨_, rfl⟩
    exact Keeps.pure kept ⟨rfl, rfl⟩
  · rintro reply disk (rfl | rfl)
    · exact consistent
    · exact stored

def World.withReceipt (world : World) (record : Record) : World :=
  { world with disk := effect world.disk (.writeReceipt record) }

theorem Consistent.withReceipt (consistent : Consistent world)
    (stored : world.disk.stored = some record) (terminal : record.terminal = true)
    (unarchived : world.disk.receipts record.plan.request_id = none) :
    Consistent (world.withReceipt record) := by
  have receipts (id : Bytes) : (world.withReceipt record).disk.receipts id =
      if id = record.plan.request_id then some record else world.disk.receipts id := by
    simp only [World.withReceipt, effect, Function.update_apply]
  constructor
  · intro id receipt kept
    rw [receipts] at kept
    split at kept
    · next same =>
        cases kept
        exact ⟨same.symm, terminal⟩
    · exact consistent.archived id receipt kept
  · exact consistent.generation
  · intro other receipt found kept
    have equal : other = record := Option.some.inj (found.symm.trans stored)
    rw [receipts, equal, if_pos rfl] at kept
    rw [equal, Option.some.inj kept]
  · intro report member phase final
    rcases consistent.settled report member phase final with found | ⟨receipt, kept, same⟩
    · exact .inl found
    · right
      refine ⟨receipt, ?_, same⟩
      rw [receipts, if_neg, kept]
      intro id
      rw [id, unarchived] at kept
      cases kept
  · exact consistent.durable
  · exact consistent.gone

theorem archive_keeps (consistent : Consistent world) (stored : world.disk.stored = some record) :
    Keeps device Consistent
      (fun _ after => after.disk.stored = world.disk.stored ∧
        (∃ receipt, after.disk.receipts record.plan.request_id = some receipt) ∧
        ∀ id, id ≠ record.plan.request_id → after.disk.receipts id = world.disk.receipts id)
      (archive record) world := by
  unfold archive
  apply Keeps.require_bind consistent
  intro terminal
  apply Keeps.bind_same (silent_keeps consistent rfl fun _ => rfl)
  rintro _ _
  apply Keeps.bind_same (history_keeps consistent record.plan.request_id)
  intro prior found
  cases prior with
  | some old =>
    apply Keeps.require consistent
    intro _
    exact ⟨rfl, ⟨old, found.symm⟩, fun _ _ => rfl⟩
  | none =>
    apply (call_keeps consistent ?_).mono
    · rintro _ after _ ⟨_, rfl⟩
      refine ⟨rfl, ⟨record, ?_⟩, ?_⟩
      · exact Function.update_self ..
      · intro id other
        exact Function.update_of_ne other ..
    · rintro reply disk (rfl | rfl)
      · exact consistent
      · exact consistent.withReceipt stored terminal found.symm

end Records

end R4OS.Removal
