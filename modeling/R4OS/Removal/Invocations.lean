import R4OS.Removal.Safety

/-!
# Invocations of application removal

Every phase of a removal keeps the invariant, whatever call an invocation stops at.  The one
exception is a plan that reuses the identity of another finished removal before its receipt is
written: it is carried out without an admission of its own.
-/

namespace R4OS.Removal

open Crash SystemInventory Text

/-- The durable record is the one the removal continues with. -/
structure Ready (plan : Plan) (record : Record) (world : World) : Prop where
  unarchived : world.disk.receipts plan.request_id = none
  stored : world.disk.stored = some record
  same : record.plan.same plan = true

theorem Plan.same_request {self other : Plan} (same : self.same other = true) :
    self.request_id = other.request_id := by
  simp only [Plan.same, Bool.and_eq_true, decide_eq_true_eq] at same
  exact same.1.1.1.1.2

section Ready

variable {world : World} {plan : Plan} {record : Record}

theorem Ready.persist_keeps (ready : Ready plan record world) (consistent : Consistent world)
    (unfinished : record.terminal = false) (next : Record) (same : next.plan = record.plan) :
    Keeps device Consistent
      (fun saved after => saved = { next with generation := next.generation + 1 } ∧
        after = world.withStored saved ∧ Ready plan saved after)
      (persist next) world := by
  have id : next.plan.request_id = plan.request_id := by
    rw [same]
    exact Plan.same_request ready.same
  apply (Removal.persist_keeps consistent ?_ ?_).mono
  · rintro saved after _ ⟨rfl, rfl⟩
    refine ⟨rfl, rfl, ready.unarchived, rfl, ?_⟩
    rw [← ready.same]
    exact congrArg (Plan.same · plan) same
  · rw [id]
    exact ready.unarchived
  · intro stored found terminal
    rw [ready.stored] at found
    rw [← Option.some.inj found, unfinished] at terminal
    cases terminal

theorem Ready.call_keeps {operation : Operation} (ready : Ready plan record world)
    (consistent : Consistent world)
    (stored : (effect world.disk operation).stored = world.disk.stored)
    (receipts : (effect world.disk operation).receipts = world.disk.receipts)
    (silent : ∀ reply, world.note operation reply = world) :
    Keeps device Consistent (fun _ after => Ready plan record after) (call operation) world := by
  apply (Removal.call_keeps consistent ?_).mono
  · rintro value after _ ⟨_, rfl⟩
    exact ⟨receipts ▸ ready.unarchived, stored ▸ ready.stored, ready.same⟩
  · intro reply disk either
    rw [World.after, silent]
    rcases either with rfl | rfl
    · exact consistent
    · exact consistent.transfer stored receipts (fun _ member => .inl member) rfl

/-! ### The inventory -/

variable {sha256 : Bytes → Vector UInt8 64}

theorem matched_keeps (consistent : Consistent world) (file : InventoryFile) (expected : Digest) :
    Keeps device Consistent (fun _ after => after = world ∧ True) (matched sha256 file expected)
      world := by
  unfold matched
  apply Keeps.bind_same (readFile_keeps consistent file)
  intro text _
  exact Keeps.pure consistent ⟨rfl, trivial⟩

theorem Ready.cleanup_keeps (ready : Ready plan record world) (consistent : Consistent world)
    (file : InventoryFile) (expected : Digest) :
    Keeps device Consistent (fun _ after => Ready plan record after) (cleanup sha256 file expected)
      world := by
  unfold cleanup
  apply Keeps.bind_same (readFile_keeps consistent file)
  intro text _
  split
  · apply Keeps.bind_same (matched_keeps consistent file expected)
    intro same _
    apply Keeps.require_bind consistent
    intro _
    apply Keeps.bind (ready.call_keeps consistent rfl rfl fun _ => rfl)
    intro _ after kept ready
    apply Keeps.bind_same (readFile_keeps kept file)
    intro rest _
    exact Keeps.require kept fun _ => ready
  · exact Keeps.pure consistent ready

theorem Ready.stageInventory_keeps (ready : Ready plan record world)
    (consistent : Consistent world) (updated : Bytes) :
    Keeps device Consistent (fun _ after => Ready plan record after)
      (stageInventory sha256 updated) world := by
  unfold stageInventory
  apply Keeps.bind_same (readFile_keeps consistent .stage)
  intro text _
  cases text with
  | none => exact ready.call_keeps consistent rfl rfl fun _ => rfl
  | some staged =>
    apply Keeps.bind_same (matched_keeps consistent .stage (digest sha256 updated))
    intro same _
    exact .require consistent fun _ => ready

theorem replace_effect (disk : Disk) :
    (effect disk .replace).stored = disk.stored ∧ (effect disk .replace).receipts = disk.receipts := by
  simp only [effect]
  split
  · exact ⟨rfl, rfl⟩
  · exact ⟨rfl, rfl⟩

section

variable (ready : Ready plan record world)

include ready

theorem Ready.replace_keeps (consistent : Consistent world) :
    Keeps device Consistent (fun _ after => Ready plan record after) (attempt .replace) world := by
  obtain ⟨stored, receipts⟩ := replace_effect world.disk
  apply Keeps.attempt consistent
  rintro reply after ⟨disk, rfl, ⟨_, rfl⟩ | ⟨_, _, rfl | rfl⟩⟩
  · exact ⟨consistent.transfer stored receipts (fun _ member => .inl member) rfl,
      receipts ▸ ready.unarchived, stored ▸ ready.stored, ready.same⟩
  · exact ⟨consistent, ready⟩
  · exact ⟨consistent.transfer stored receipts (fun _ member => .inl member) rfl,
      receipts ▸ ready.unarchived, stored ▸ ready.stored, ready.same⟩

theorem Ready.admitInventory_keeps
    (consistent : Consistent world) (unfinished : record.terminal = false) (before after : Digest) :
    Keeps device Consistent
      (fun saved after => Ready plan saved after ∧ saved.phase = record.phase)
      (admitInventory record before after) world := by
  unfold admitInventory
  split
  · apply Keeps.bind_same (readFile_keeps consistent .stage)
    intro stage _
    apply Keeps.bind_same (readFile_keeps consistent .backup)
    intro backup _
    apply Keeps.require_bind consistent
    intro _
    apply (ready.persist_keeps consistent unfinished
      { record with inventory_before := some before, inventory_after := some after } rfl).mono
    rintro saved after _ ⟨rfl, _, ready⟩
    exact ⟨ready, rfl⟩
  · exact .pure consistent ⟨ready, rfl⟩

theorem Ready.replaceInventory_keeps
    (consistent : Consistent world) (unfinished : record.terminal = false)
    (current updated : Bytes) :
    Keeps device Consistent
      (fun saved after => Ready plan saved after ∧ saved.phase = record.phase)
      (replaceInventory sha256 record current updated) world := by
  unfold replaceInventory
  apply Keeps.bind (ready.admitInventory_keeps consistent unfinished _ _)
  rintro saved world consistent ⟨ready, phase⟩
  apply Keeps.bind (ready.stageInventory_keeps consistent updated)
  intro _ world consistent ready
  apply Keeps.bind (ready.replace_keeps consistent)
  intro _ world consistent ready
  apply Keeps.bind_same (matched_keeps consistent .current (digest sha256 updated))
  intro same _
  apply Keeps.require_bind consistent
  intro _
  apply Keeps.bind (ready.cleanup_keeps consistent .backup _)
  intro _ world consistent ready
  apply Keeps.bind (ready.cleanup_keeps consistent .stage _)
  intro _ world consistent ready
  exact .pure consistent ⟨ready, phase⟩

theorem Ready.removeEntry_keeps
    (consistent : Consistent world) (unfinished : record.terminal = false)
    (inventory : Inventory) (current : Bytes) :
    Keeps device Consistent
      (fun saved after => Ready plan saved after ∧ saved.phase = record.phase)
      (removeEntry sha256 record inventory current) world := by
  unfold removeEntry
  apply Keeps.computed_bind consistent
  intro found _
  cases found with
  | none => exact Keeps.pure consistent ⟨ready, rfl⟩
  | some old =>
    dsimp only
    split
    · exact Keeps.throw consistent
    · split
      · exact Keeps.throw consistent
      · exact ready.replaceInventory_keeps consistent unfinished _ _

theorem Ready.removeInventory_keeps
    (consistent : Consistent world) (unfinished : record.terminal = false) :
    Keeps device Consistent
      (fun saved after => Ready plan saved after ∧ saved.phase = record.phase)
      (removeInventory sha256 record) world := by
  unfold removeInventory
  apply Keeps.bind_same (readFile_keeps consistent .current)
  intro text _
  apply Keeps.computed_bind consistent
  intro inventory _
  cases record.inventory_after with
  | none => exact ready.removeEntry_keeps consistent unfinished _ _
  | some digested =>
    dsimp only
    split
    · apply Keeps.bind (ready.cleanup_keeps consistent .backup _)
      intro _ world consistent ready
      apply Keeps.bind (ready.cleanup_keeps consistent .stage _)
      intro _ world consistent ready
      exact Keeps.pure consistent ⟨ready, rfl⟩
    · apply Keeps.require_bind consistent
      intro _
      exact ready.removeEntry_keeps consistent unfinished _ _

/-! ### The phases -/

end

def Reportable (plan : Plan) (outcome : Outcome) (after : World) : Prop :=
  Consistent (after.add plan outcome.state)

theorem Ready.finish_keeps (ready : Ready plan record world) (consistent : Consistent world)
    (unfinished : record.terminal = false) :
    Keeps device Consistent (Reportable plan) (finish plan record) world := by
  unfold finish
  apply Keeps.bind_same (removedBoth_keeps consistent plan)
  intro gone both
  apply Keeps.require_bind consistent
  intro yes
  apply Keeps.bind
    (ready.persist_keeps consistent unfinished { record with phase := .completed } rfl)
  rintro saved after kept ⟨rfl, rfl, _⟩
  apply Keeps.pure kept
  apply kept.add
  · rintro _ ⟨⟩
    exact .inl ⟨_, rfl, Plan.same_request ready.same, rfl⟩
  · exact fun _ => both yes

theorem Ready.settleInventory_keeps (ready : Ready plan record world)
    (consistent : Consistent world) (unfinished : record.terminal = false) :
    Keeps device Consistent (Reportable plan) (settleInventory sha256 plan record) world := by
  unfold settleInventory
  split
  · next phase =>
      apply Keeps.bind_same (absent_keeps consistent plan)
      intro gone _
      apply Keeps.require_bind consistent
      intro _
      apply Keeps.bind (ready.removeInventory_keeps consistent unfinished)
      rintro saved world consistent ⟨ready, same⟩
      have unfinished : saved.terminal = false := by simp [Record.terminal, same, phase]
      apply Keeps.bind
        (ready.persist_keeps consistent unfinished { saved with phase := .inventory_removed } rfl)
      rintro final world consistent ⟨rfl, _, ready⟩
      exact ready.finish_keeps consistent rfl
  · exact ready.finish_keeps consistent unfinished

theorem Ready.settlePayload_keeps (ready : Ready plan record world)
    (consistent : Consistent world) (unfinished : record.terminal = false) :
    Keeps device Consistent (Reportable plan) (settlePayload sha256 plan record) world := by
  unfold settlePayload
  apply Keeps.bind_same (absent_keeps consistent plan)
  intro gone _
  apply Keeps.require_bind consistent
  intro _
  apply Keeps.bind
    (ready.persist_keeps consistent unfinished { record with phase := .payload_removed } rfl)
  rintro saved world consistent ⟨rfl, _, ready⟩
  exact ready.settleInventory_keeps consistent rfl

theorem admit_keeps (consistent : Consistent world) :
    Keeps device Consistent
      (fun _ after => after = { world with admits := plan :: world.admits }) (call (.admitPlan plan))
      world := by
  apply (Removal.call_keeps consistent ?_).mono
  · rintro value after _ ⟨_, rfl⟩
    rfl
  · intro reply disk either
    have same : disk = world.disk := (or_self _).mp either
    subst same
    cases reply with
    | error error => exact consistent
    | ok value => exact consistent.transfer rfl rfl (fun _ member => .inl member) rfl

variable (plan) in
theorem delete_effect (disk : Disk) :
    (effect disk (.delete plan)).stored = disk.stored ∧
      (effect disk (.delete plan)).receipts = disk.receipts := by
  simp only [effect]
  split
  · exact ⟨rfl, rfl⟩
  · exact ⟨rfl, rfl⟩

section

variable (ready : Ready plan record world)

include ready

theorem Ready.delete_keeps (consistent : Consistent world)
    (prepared : record.phase = .prepared) (admitted : plan ∈ world.admits) :
    Keeps device Consistent (fun _ after => Ready plan record after) (call (.delete plan))
      world := by
  obtain ⟨stored, receipts⟩ := delete_effect plan world.disk
  have durable (disk : Disk) (sameStored : disk.stored = world.disk.stored)
      (sameReceipts : disk.receipts = world.disk.receipts)
      (reply : Reply RemoveError Operation.Value (.delete plan)) :
      Consistent (world.after (.delete plan) reply disk) := by
    refine consistent.transfer sameStored sameReceipts ?_ rfl
    intro deletion member
    rcases List.mem_cons.mp member with rfl | old
    · exact .inr ⟨admitted, record, ready.stored, prepared, ready.same⟩
    · exact .inl old
  apply (Removal.call_keeps consistent ?_).mono
  · rintro value after _ ⟨_, rfl⟩
    exact ⟨receipts ▸ ready.unarchived, stored ▸ ready.stored, ready.same⟩
  · rintro reply disk (rfl | rfl)
    · exact durable _ rfl rfl reply
    · exact durable _ stored receipts reply

theorem Ready.deletePayload_keeps
    (consistent : Consistent world) (prepared : record.phase = .prepared) :
    Keeps device Consistent (Reportable plan) (deletePayload sha256 plan record) world := by
  have unfinished : record.terminal = false := by simp [Record.terminal, prepared]
  unfold deletePayload
  apply Keeps.bind (admit_keeps consistent)
  rintro _ after consistent rfl
  have ready : Ready plan record { world with admits := plan :: world.admits } :=
    ⟨ready.unarchived, ready.stored, ready.same⟩
  apply Keeps.bind_same (silent_keeps consistent rfl fun _ => rfl)
  intro running _
  split
  · exact .pure consistent consistent.add_waiting
  · apply Keeps.bind (ready.delete_keeps consistent prepared (.head _))
    intro _ world consistent ready
    exact ready.settlePayload_keeps consistent unfinished

theorem Ready.removePayload_keeps
    (consistent : Consistent world) (prepared : record.phase = .prepared) :
    Keeps device Consistent (Reportable plan) (removePayload sha256 plan record) world := by
  have unfinished : record.terminal = false := by simp [Record.terminal, prepared]
  unfold removePayload
  apply Keeps.bind_same (cancelledInTime_keeps consistent plan)
  intro cancelled _
  split
  · apply Keeps.bind
      (ready.persist_keeps consistent unfinished { record with phase := .cancelled } rfl)
    rintro saved after kept ⟨rfl, rfl, _⟩
    apply Keeps.pure kept
    apply kept.add
    · rintro _ ⟨⟩
      exact .inl ⟨_, rfl, Plan.same_request ready.same, rfl⟩
    · rintro ⟨⟩
  · apply Keeps.bind_same (silent_keeps consistent rfl fun _ => rfl)
    intro running _
    split
    · exact Keeps.pure consistent consistent.add_waiting
    · apply Keeps.bind_same (absent_keeps consistent plan)
      intro gone _
      split
      · exact ready.settlePayload_keeps consistent unfinished
      · exact ready.deletePayload_keeps consistent prepared

theorem Ready.resume_keeps (consistent : Consistent world) (unfinished : record.terminal = false) :
    Keeps device Consistent (Reportable plan) (resume sha256 plan record) world := by
  unfold resume
  split
  · next prepared => exact ready.removePayload_keeps consistent prepared
  · exact ready.settleInventory_keeps consistent unfinished

/-! ### Admission -/

end

@[simp] theorem Plan.same_self (plan : Plan) : plan.same plan = true := by
  simp [Plan.same, targetEquals, Update.Batch.eqlIgnoreCase]

theorem admit_persist_keeps (consistent : Consistent world)
    (unarchived : world.disk.receipts plan.request_id = none)
    (replaceable : world.Replaceable)
    (generation : UInt64) :
    Keeps device Consistent
      (fun saved after => Ready plan saved after ∧ saved.terminal = false)
      (do
        call (.admitPlan plan)
        persist { generation, plan }) world := by
  apply Keeps.bind (admit_keeps consistent)
  rintro _ after kept rfl
  apply (persist_keeps kept unarchived replaceable).mono
  rintro saved after _ ⟨rfl, rfl⟩
  exact ⟨⟨unarchived, rfl, Plan.same_self plan⟩, rfl⟩

theorem admission_new_keeps (consistent : Consistent world)
    (unarchived : world.disk.receipts plan.request_id = none)
    (replaceable : world.Replaceable)
    {generation : UInt64}
    (unknown : generation = 0 ∨
      ∀ stored, world.disk.stored = some stored → stored.plan.request_id ≠ plan.request_id) :
    Keeps device Consistent
      (fun saved after => Ready plan saved after ∧ saved.terminal = false)
      (admission plan { generation, plan }) world := by
  have absent : Keeps device Consistent (fun before after => after = world ∧ before = false)
      (admittedBefore plan { generation, plan }) world := by
    unfold admittedBefore
    split
    · exact .pure consistent ⟨rfl, rfl⟩
    · next started =>
        have foreign := unknown.resolve_left started
        apply (recordExists_keeps consistent plan.request_id).mono
        rintro present after _ ⟨same, rfl⟩
        refine ⟨same, ?_⟩
        cases stored : world.disk.stored with
        | none => rfl
        | some current => simpa using foreign current stored
  unfold admission
  apply Keeps.bind_same absent
  rintro _ rfl
  exact admit_persist_keeps consistent unarchived replaceable generation

theorem Ready.admission_keeps (ready : Ready plan record world) (consistent : Consistent world)
    (unfinished : record.terminal = false) :
    Keeps device Consistent
      (fun saved after => Ready plan saved after ∧ saved.terminal = false)
      (admission plan record) world := by
  have present : Keeps device Consistent (fun before after => after = world ∧ before = true)
      (admittedBefore plan record) world := by
    unfold admittedBefore
    rw [if_neg (consistent.generation record ready.stored)]
    apply (recordExists_keeps consistent plan.request_id).mono
    rintro before after _ ⟨same, rfl⟩
    exact ⟨same, by simp [ready.stored, Plan.same_request ready.same]⟩
  unfold admission
  apply Keeps.bind_same present
  rintro _ rfl
  exact Keeps.pure consistent ⟨ready, unfinished⟩

end Ready

section Invocations

variable {world : World} {plan : Plan} {sha256 : Bytes → Vector UInt8 64}

theorem admitted_keeps {record : Record} (admission_keeps : Keeps device Consistent
      (fun saved after => Ready plan saved after ∧ saved.terminal = false)
      (admission plan record) world) :
    Keeps device Consistent (Reportable plan)
      (do
        let record ← admission plan record
        resume sha256 plan record) world := by
  apply Keeps.bind admission_keeps
  rintro saved after consistent ⟨ready, unfinished⟩
  exact ready.resume_keeps consistent unfinished

/-- One invocation keeps the invariant wherever it stops. -/
theorem execute_keeps (consistent : Consistent world) (distinct : ¬ Reused plan world.disk) :
    Keeps device Consistent (Reportable plan) (execute sha256 plan) world := by
  unfold execute
  apply Keeps.computed_bind consistent
  intro _ _
  apply Keeps.bind_same (load_keeps consistent)
  rintro loaded rfl
  apply Keeps.bind_same (history_keeps consistent plan.request_id)
  rintro prior found
  cases prior with
  | some prior =>
    obtain ⟨_, terminal⟩ := consistent.archived _ _ found.symm
    apply Keeps.require_bind consistent
    intro _
    exact repeated_keeps consistent terminal (.inr ⟨prior, found.symm, rfl⟩)
  | none =>
    have unarchived : world.disk.receipts plan.request_id = none := found.symm
    cases stored : world.disk.stored with
    | none =>
      have fresh : Keeps device Consistent (Reportable plan)
          (do
            let record ← admission plan { plan }
            resume sha256 plan record) world := by
        apply admitted_keeps
        apply admission_new_keeps consistent unarchived _ (.inl rfl)
        intro _ stored'
        rw [stored] at stored'
        cases stored'
      simpa [Record.terminal] using fresh
    | some record =>
      simp only [Option.getD_some]
      split
      · next other =>
          apply Keeps.require_bind consistent
          intro terminal
          have foreign : record.plan.request_id ≠ plan.request_id := by
            intro reused
            exact distinct ⟨unarchived, record, stored, terminal, reused, by simpa using other⟩
          apply Keeps.bind (archive_keeps consistent stored)
          rintro _ after consistent ⟨sameStored, ⟨receipt, kept⟩, others⟩
          have current : ∀ now, after.disk.stored = some now → now = record := by
            intro now found
            rw [sameStored, stored] at found
            exact (Option.some.inj found).symm
          apply admitted_keeps
          apply admission_new_keeps consistent
          · rw [others _ foreign.symm, unarchived]
          · intro now found _
            rw [current now found]
            exact ⟨receipt, kept⟩
          · right
            intro now found
            rw [current now found]
            exact foreign
      · next same =>
          have same : record.plan.same plan = true := by simpa using same
          split
          · next terminal =>
              exact repeated_keeps consistent terminal
                (.inl ⟨record, stored, Plan.same_request same, rfl⟩)
          · next unfinished =>
              have unfinished : record.terminal = false := by simpa using unfinished
              have ready : Ready plan record world := ⟨unarchived, stored, same⟩
              exact admitted_keeps (ready.admission_keeps consistent unfinished)

theorem fresh_consistent (payload : Bytes → Option Image) (files : InventoryFile → Option Bytes) :
    Consistent
      { disk := { stored := none, receipts := fun _ => none, payload, files }
        admits := [], deletions := [], reports := [] } := by
  constructor
  · rintro id receipt ⟨⟩
  · rintro record ⟨⟩
  · rintro record receipt ⟨⟩
  · rintro report ⟨⟩
  · rintro deletion ⟨⟩
  · rintro report ⟨⟩

theorem consistent_of_reachable
    (reached : Reachable sha256 (fun plan disk => ¬ Reused plan disk) world) :
    Consistent world := by
  induction reached with
  | fresh payload files => exact fresh_consistent payload files
  | other _ payload files consistent =>
    exact consistent.transfer rfl rfl (fun _ member => .inl member) rfl
  | @invoke before after _ plan outcome distinct execution consistent =>
    have start : Consistent { before with admits := [] } :=
      consistent.transfer rfl rfl (fun _ member => .inl member) rfl
    obtain ⟨kept, returned⟩ := (execute_keeps start distinct).sound execution
    rcases outcome with _ | error | outcome
    · exact kept
    · exact kept
    · exact returned outcome rfl

/-- As long as no plan reuses the identity of another finished removal, deletions are admitted and
durable, what is reported as removed is gone, and no request is both removed and cancelled. -/
theorem promise_of_reachable
    (reached : Reachable sha256 (fun plan disk => ¬ Reused plan disk) world) : Promise world :=
  (consistent_of_reachable reached).promise

end Invocations

section Sample

/-- A device on which every call is carried out. -/
def handler (stop : Bool) (operation : Operation) (world : World) :
    Reply RemoveError Operation.Value operation × World :=
  let reply : Reply RemoveError Operation.Value operation :=
    match operation with
    | .load => .ok world.disk.stored
    | .readReceipt id => .ok (world.disk.receipts id)
    | .cancelled => .ok stop
    | .running _ => .ok false
    | .absent plan => .ok (world.disk.image plan.target).isNone
    | .admitPlan plan => admitted world.disk plan
    | .delete plan => if deletable world.disk plan then .ok () else .error .RemoveDeleteConflict
    | .readFile file => .ok (world.disk.files file)
    | .ensureParents | .writeReceipt _ | .store _ | .writeFile _ _ | .deleteFile _ | .replace =>
      .ok ()
  (reply, { world.note operation reply with disk := effect world.disk operation })

theorem handler_device (stop : Bool) (operation : Operation) (world : World) :
    device operation world (handler stop operation world).1 (handler stop operation world).2 := by
  refine ⟨_, rfl, .inl ⟨?_, rfl⟩⟩
  cases operation
  case cancelled => exact ⟨stop, rfl⟩
  case running => exact ⟨false, rfl⟩
  all_goals rfl

def sampleHash (_ : Bytes) : Vector UInt8 64 := Vector.replicate 64 (chr 'b')

def sampleDigest : Digest where
  size := 16
  sha256 := sampleHash []
  checksum := 123

/-- The reported states with their requests, and the durable phase at each deletion. -/
def World.summary (world : World) : List (State × Bytes) × List (Option Phase) :=
  ( world.reports.map fun report => (report.state, report.plan.request_id),
    world.deletions.map fun deletion => deletion.stored.map Record.phase )

theorem Promise.prepared {world : World} (promise : Promise world) :
    ∀ phase ∈ world.summary.2, phase = some .prepared := by
  intro phase member
  obtain ⟨deletion, called, rfl⟩ := List.mem_map.mp member
  obtain ⟨_, record, stored, prepared, _⟩ := promise.durable deletion called
  rw [stored, Option.map_some, prepared]

def sampleRequest : Bytes := List.replicate 64 (chr 'a')

/-- A plan of the one request identity, for an application of a given name. -/
def samplePlan (name : Bytes) : Plan where
  request_id := sampleRequest
  target := ascii "C:\\APPS\\" ++ name ++ ascii ".R4X"
  name
  version := ascii "1.0.0"
  previous := sampleDigest

def sampleEntry (name : Bytes) : Entry where
  name
  kind := .r4x
  version := ascii "1.0.0"
  target := ascii "/APPS/" ++ name ++ ascii ".R4X"

def sampleInventory : Inventory where
  profile := .slim
  entries :=
    [ { name := ascii "KERNEL", kind := .kernel, version := ascii "0.1.0",
        target := ascii "/boot/r4os.elf" },
      sampleEntry (ascii "DEMO"), sampleEntry (ascii "OTHER") ]

/-- Two installed applications. -/
def sampleWorld : World where
  disk :=
    { stored := none
      receipts := fun _ => none
      payload := fun target =>
        if target = ascii "C:/APPS/DEMO.R4X" then
          some { identity := some ⟨.r4x, ascii "DEMO", ascii "1.0.0"⟩, digest := sampleDigest }
        else if target = ascii "C:/APPS/OTHER.R4X" then
          some { identity := some ⟨.r4x, ascii "OTHER", ascii "1.0.0"⟩, digest := sampleDigest }
        else none
      files := fun
        | .current => some (inventoryText sampleInventory)
        | _ => none }
  admits := []
  deletions := []
  reports := []

/-- An invocation on the sample device. -/
def invoke (stop : Bool) (plan : Plan) (world : World) : World :=
  let result := (execute sampleHash plan).run.run (handler stop) { world with admits := [] }
  result.2.report plan (some result.1)

theorem invoke_reachable {Allowed : Plan → Disk → Prop} {world : World} (stop : Bool) (plan : Plan)
    (reached : Reachable sampleHash Allowed world) (allowed : Allowed plan world.disk) :
    Reachable sampleHash Allowed (invoke stop plan world) :=
  .invoke reached plan allowed (Program.run_execution (handler_device stop) _ _)

/-- A complete removal. -/
def removedOnce : World := invoke false (samplePlan (ascii "DEMO")) sampleWorld

theorem promise_of_reachable_sample :
    removedOnce.summary = ([(.removed, sampleRequest)], [some .prepared]) ∧
      Promise removedOnce := by
  have reached : Reachable sampleHash (fun plan disk => ¬ Reused plan disk) removedOnce := by
    apply invoke_reachable false _ (.fresh _ _)
    rintro ⟨_, record, ⟨⟩, _⟩
  exact ⟨by decide +kernel, promise_of_reachable reached⟩

/-- A cancelled removal, and then a removal of another application under the same identity. -/
def reusedIdentity : World :=
  invoke false (samplePlan (ascii "OTHER")) (invoke true (samplePlan (ascii "DEMO")) sampleWorld)

/-- The second application is deleted under the cancelled record of the first, and its removal is
reported for a cancelled request. -/
theorem reused_identity_deletes :
    Reachable sampleHash (fun _ _ => True) reusedIdentity ∧
      reusedIdentity.summary =
        ([(.removed, sampleRequest), (.cancelled, sampleRequest)], [some .cancelled]) ∧
      ¬ Promise reusedIdentity := by
  have reached : Reachable sampleHash (fun _ _ => True) reusedIdentity := by
    apply invoke_reachable false _ _ trivial
    exact invoke_reachable true _ (.fresh _ _) trivial
  have summary : reusedIdentity.summary =
      ([(.removed, sampleRequest), (.cancelled, sampleRequest)], [some .cancelled]) := by
    decide +kernel
  refine ⟨reached, summary, ?_⟩
  intro promise
  have prepared := promise.prepared (some .cancelled)
  rw [summary] at prepared
  cases prepared (List.mem_singleton_self _)

end Sample

end R4OS.Removal
