import R4OS.Update.Recovery

/-!
# Crash atomicity of restart batches

Each payload is uncommitted or committed on disk, and the journal marker lags the disk by one step.
The invariant relates markers, phase and disk of the durable journal, at every point a forward or a
reverse replay can be cut at.
-/

namespace R4OS.Update

open Crash Text

/-- The two durable states of one payload. -/
inductive PayloadState
  /-- The old target or no target, with the stage present. -/
  | uncommitted
  /-- The new target, with the old content in the backup. -/
  | committed

/-- What survives a crash: the payload under each target path and the newest journal. -/
structure RecoveryWorld where
  payload : Bytes → PayloadState
  durable : TransactionJournal

def RecoveryWorld.move (world : RecoveryWorld) (entry : JournalPayload) (state : PayloadState) :
    RecoveryWorld :=
  { world with payload := Function.update world.payload entry.targetText state }

/-- The recovery environment.  Mutations are atomic and change nothing unless they answer `ok`;
a persist that fails may still have become durable; probes answer anything. -/
def recoveryDevice : Device RecoveryIo.Answer RecoveryWorld
  | .commitPayload entry, before, answer, after =>
    after = if answer = .ok then before.move entry .committed else before
  | .rollbackPayload entry, before, answer, after =>
    after = if answer = .ok then before.move entry .uncommitted else before
  | .persist journal, before, some stamp, after => after = { before with durable := journal.stamp stamp }
  | .persist journal, before, none, after =>
    after = before ∨ ∃ stamp, after = { before with durable := journal.stamp stamp }
  | .pathState _ _ _, before, _, after => after = before
  | .presence _, before, _, after => after = before
  | .cleanupPayload _, before, _, after => after = before

/-- A payload without its markers. -/
def JournalPayload.unmark (entry : JournalPayload) : JournalPayload :=
  { entry with committed := false, rolled_back := false }

def unmarked (journal : TransactionJournal) : List JournalPayload :=
  journal.payloads.map JournalPayload.unmark

/-- Every payload marked as committed is committed on disk. -/
def ForwardAgrees (journal : TransactionJournal) (world : RecoveryWorld) : Prop :=
  ∀ entry ∈ journal.payloads, entry.committed → world.payload entry.targetText = .committed

/-- Every replaced payload marked as rolled back is uncommitted on disk. -/
def ReverseAgrees (journal : TransactionJournal) (world : RecoveryWorld) : Prop :=
  ∀ entry ∈ journal.payloads, entry.rolled_back → entry.replace_required →
    world.payload entry.targetText = .uncommitted

/-- Markers agree with the disk up to the payload in flight: what is marked is committed, and what
lies past the first unmarked payload is untouched. -/
structure MarkersAgree (world : RecoveryWorld) : Prop where
  marked : ForwardAgrees world.durable world
  untouched : ∀ index entry, world.durable.payloads[index]? = some entry →
    world.durable.committed_count < index → entry.replace_required →
      world.payload entry.targetText = .uncommitted

/-- What a journal in a given phase says about the disk. -/
def PhaseAgrees (journal : TransactionJournal) (world : RecoveryWorld) : Prop :=
  match journal.phase with
  | .stage | .commit => ForwardAgrees journal world
  | .post_boot => ForwardAgrees journal world ∧ ∀ entry ∈ journal.payloads, entry.committed
  | .rollback => ReverseAgrees journal world
  | .rolled_back => ReverseAgrees journal world ∧ ∀ entry ∈ journal.payloads, entry.rolled_back
  | _ => False

/-- The durable journal still describes the original batch and agrees with the disk. -/
def RecoveryInvariant (original : TransactionJournal) (world : RecoveryWorld) : Prop :=
  unmarked world.durable = unmarked original ∧ PhaseAgrees world.durable world

section Markers

variable {journal : TransactionJournal} {world : RecoveryWorld} {entry : JournalPayload}
  {index : Nat} {stamp : Stamp}

@[simp] theorem stamp_payloads : (journal.stamp stamp).payloads = journal.payloads := rfl

@[simp] theorem stamp_phase : (journal.stamp stamp).phase = journal.phase := rfl

@[simp] theorem recount_payloads : (recount journal).payloads = journal.payloads := rfl

@[simp] theorem recount_phase : (recount journal).phase = journal.phase := rfl

@[simp] theorem setPayload_phase : (journal.setPayload index entry).phase = journal.phase := rfl

@[simp] theorem setPayload_payloads :
    (journal.setPayload index entry).payloads = journal.payloads.set index entry := rfl

theorem unmarked_setPayload (marked : JournalPayload)
    (found : journal.payloads[index]? = some entry) (same : marked.unmark = entry.unmark) :
    unmarked (journal.setPayload index marked) = unmarked journal := by
  have position : (unmarked journal)[index]? = some entry.unmark := by
    simp [unmarked, found]
  unfold unmarked at position ⊢
  obtain ⟨inside, element⟩ := List.getElem?_eq_some_iff.mp position
  rw [setPayload_payloads, List.map_set, same, ← element]
  exact List.set_getElem_self inside

theorem mem_setPayload {marked other : JournalPayload}
    (member : other ∈ (journal.setPayload index marked).payloads) :
    other = marked ∨ other ∈ journal.payloads := by
  rw [setPayload_payloads] at member
  exact (List.mem_or_eq_of_mem_set member).symm

theorem ForwardAgrees.move_committed (entry : JournalPayload)
    (agrees : ForwardAgrees journal world) :
    ForwardAgrees journal (world.move entry .committed) := by
  intro other member committed
  by_cases same : other.targetText = entry.targetText
  · simp [RecoveryWorld.move, same]
  · simpa [RecoveryWorld.move, same] using agrees other member committed

theorem ReverseAgrees.move_uncommitted (entry : JournalPayload)
    (agrees : ReverseAgrees journal world) :
    ReverseAgrees journal (world.move entry .uncommitted) := by
  intro other member rolled_back required
  by_cases same : other.targetText = entry.targetText
  · simp [RecoveryWorld.move, same]
  · simpa [RecoveryWorld.move, same] using agrees other member rolled_back required

/-- Two journals of one batch describe the same files. -/
theorem mem_of_unmarked_eq {other : TransactionJournal} (same : unmarked journal = unmarked other)
    (member : entry ∈ other.payloads) :
    ∃ twin ∈ journal.payloads, twin.targetText = entry.targetText ∧
      twin.replace_required = entry.replace_required := by
  have erased : entry.unmark ∈ unmarked journal := same ▸ List.mem_map_of_mem member
  obtain ⟨twin, twin_mem, equality⟩ := List.mem_map.mp erased
  have target : twin.unmark.targetText = entry.unmark.targetText := by rw [equality]
  have required : twin.unmark.replace_required = entry.unmark.replace_required := by rw [equality]
  exact ⟨twin, twin_mem, target, required⟩

end Markers

section Replay

variable {original journal : TransactionJournal} {world : RecoveryWorld}

variable {entry : JournalPayload} {cursor : Nat}

theorem persist_ensures (journal : TransactionJournal)
    (invariant : RecoveryInvariant original world)
    (same : unmarked journal = unmarked original) (agrees : PhaseAgrees journal world) :
    Ensures recoveryDevice (RecoveryInvariant original)
      (fun answer after => after.payload = world.payload ∧
        (answer.1 = true → ∃ stamp, answer.2 = journal.stamp stamp ∧ after.durable = answer.2))
      (persist journal) world := by
  apply Ensures.perform_bind invariant
  intro answer after transition
  cases answer with
  | some stamp =>
    obtain rfl : after = { world with durable := journal.stamp stamp } := transition
    exact Ensures.pure ⟨same, agrees⟩ ⟨rfl, fun _ => ⟨stamp, rfl, rfl⟩⟩
  | none =>
    rcases transition with rfl | ⟨stamp, rfl⟩
    · exact .pure invariant ⟨rfl, by simp⟩
    · exact .pure ⟨same, agrees⟩ ⟨rfl, by simp⟩

/-- The payloads below the bound are committed in memory and on disk. -/
structure CommitProgress (original : TransactionJournal) (bound : Nat)
    (journal : TransactionJournal) (world : RecoveryWorld) : Prop where
  same : unmarked journal = unmarked original
  phase : journal.phase = .commit
  agrees : ForwardAgrees journal world
  below : ∀ index entry, index < bound → journal.payloads[index]? = some entry → entry.committed

theorem CommitProgress.phaseAgrees {bound : Nat}
    (progress : CommitProgress original bound journal world) : PhaseAgrees journal world := by
  simpa [PhaseAgrees, progress.phase] using progress.agrees

theorem CommitProgress.all {bound : Nat} (progress : CommitProgress original bound journal world)
    (complete : journal.payload_count ≤ bound) : ∀ entry ∈ journal.payloads, entry.committed := by
  intro entry member
  obtain ⟨index, inside, element⟩ := List.getElem_of_mem member
  exact progress.below index entry (Nat.lt_of_lt_of_le inside complete)
    (List.getElem?_eq_some_iff.mpr ⟨inside, element⟩)

theorem CommitProgress.mark {index : Nat} (progress : CommitProgress original index journal world)
    (found : journal.payloads[index]? = some entry) :
    CommitProgress original (index + 1)
      (recount (journal.setPayload index { entry with committed := true, rolled_back := false }))
      (world.move entry .committed) where
  same :=
    (unmarked_setPayload { entry with committed := true, rolled_back := false }
      found rfl).trans progress.same
  phase := progress.phase
  agrees := by
    intro other member committed
    rcases mem_setPayload member with rfl | old
    · exact Function.update_self ..
    · exact progress.agrees.move_committed entry other old committed
  below := by
    intro position other position_lt element
    rw [recount_payloads, setPayload_payloads, List.getElem?_set] at element
    split at element
    · split at element
      · rw [← Option.some.inj element]
      · cases element
    · exact progress.below position other (by omega) element

theorem commitOne_ensures {index : Nat} (invariant : RecoveryInvariant original world)
    (durable_same : world.durable.phase = .commit)
    (progress : CommitProgress original index journal world)
    (found : journal.payloads[index]? = some entry) :
    Ensures recoveryDevice (RecoveryInvariant original)
      (fun answer after => answer.1 = .ok → after.durable.phase = .commit ∧
        answer.2.payload_count = journal.payload_count ∧
        CommitProgress original (index + 1) answer.2 after)
      (commitOne journal index entry) world := by
  apply Ensures.perform_bind invariant
  intro answer after transition
  obtain rfl : after = if answer = .ok then world.move entry .committed else world := transition
  cases answer with
  | conflict | io => exact Ensures.pure invariant (by simp)
  | ok =>
    have moved : RecoveryInvariant original (world.move entry .committed) := by
      refine ⟨invariant.1, ?_⟩
      have agrees := invariant.2
      simp only [PhaseAgrees, durable_same] at agrees
      simpa [PhaseAgrees, RecoveryWorld.move, durable_same] using
        agrees.move_committed entry
    have marked := progress.mark found
    refine .seq (persist_ensures _ moved marked.same marked.phaseAgrees) ?_
    rintro ⟨persisted, memory⟩ later kept ⟨payload_eq, stamped⟩
    cases persisted with
    | false => exact .pure kept (by simp)
    | true =>
      obtain ⟨stamp, memory_eq, durable_eq⟩ := stamped rfl
      dsimp only at memory_eq durable_eq
      subst memory_eq
      refine .pure kept fun _ => ⟨by simp [durable_eq, progress.phase], ?_, ?_⟩
      · simp [TransactionJournal.payload_count]
      · refine ⟨marked.same, marked.phase, ?_, marked.below⟩
        intro other member committed
        rw [payload_eq]
        exact marked.agrees other member committed

theorem commitPayloads_ensures (remaining : Nat) {journal : TransactionJournal}
    {world : RecoveryWorld} (invariant : RecoveryInvariant original world)
    (durable_phase : world.durable.phase = .commit) (inside : remaining ≤ journal.payload_count)
    (progress : CommitProgress original (journal.payload_count - remaining) journal world) :
    Ensures recoveryDevice (RecoveryInvariant original)
      (fun answer after => answer.1 = .ok →
        CommitProgress original answer.2.payload_count answer.2 after)
      (commitPayloads remaining journal) world := by
  induction remaining generalizing journal world with
  | zero => exact .pure invariant fun _ => by simpa using progress
  | succ remaining induction =>
    let index := journal.payload_count - (remaining + 1)
    have index_lt : index < journal.payloads.length := by
      have length_eq : journal.payload_count = journal.payloads.length := rfl
      omega
    have next_index : journal.payload_count - remaining = index + 1 := by omega
    obtain ⟨entry, found⟩ : ∃ entry, journal.payloads[index]? = some entry :=
      ⟨_, List.getElem?_eq_getElem index_lt⟩
    rw [commitPayloads]
    simp only [show journal.payloads[journal.payload_count - (remaining + 1)]? = some entry
      from found]
    split
    · rename_i committed
      apply induction invariant durable_phase (by omega)
      refine ⟨progress.same, progress.phase, progress.agrees, ?_⟩
      intro position other position_lt element
      by_cases here : position = index
      · subst here
        rw [found] at element
        exact Option.some.inj element ▸ committed
      · exact progress.below position other (by omega) element
    · refine .seq (commitOne_ensures invariant durable_phase progress found) ?_
      rintro ⟨status, memory⟩ after kept outcome
      cases status with
      | ok =>
        obtain ⟨phase_eq, count_eq, marked⟩ := outcome rfl
        dsimp only at count_eq marked
        apply induction kept phase_eq (by omega)
        rw [count_eq, next_index]
        exact marked
      | invalid | conflict | io => exact .pure kept (by simp)

theorem verifyTargets_ensures (entries : List JournalPayload)
    (invariant : RecoveryInvariant original world) :
    Ensures recoveryDevice (RecoveryInvariant original) (fun _ after => after = world)
      (verifyTargets entries) world := by
  induction entries with
  | nil => exact .pure invariant rfl
  | cons entry entries induction =>
    apply Ensures.perform_bind invariant
    intro answer after transition
    obtain rfl : after = world := transition
    cases answer with
    | «match» => exact induction
    | not_found | other | io => exact Ensures.pure invariant rfl

theorem resumeBatchForward_ensures (invariant : RecoveryInvariant original world) :
    Ensures recoveryDevice (RecoveryInvariant original)
      (fun answer after => answer.1 = .ok →
        ∀ entry ∈ original.payloads, after.payload entry.targetText = .committed)
      (resumeBatchForward world.durable) world := by
  have all_new {journal : TransactionJournal} {after : RecoveryWorld}
      (same : unmarked journal = unmarked original) (agrees : ForwardAgrees journal after)
      (all : ∀ entry ∈ journal.payloads, entry.committed) :
      ∀ entry ∈ original.payloads, after.payload entry.targetText = .committed := by
    intro entry member
    obtain ⟨twin, twin_mem, target_eq, -⟩ := mem_of_unmarked_eq same member
    exact target_eq ▸ agrees twin twin_mem (all twin twin_mem)
  unfold resumeBatchForward
  split
  · exact .pure invariant (by simp)
  split
  · rename_i post_boot
    have phase_eq : world.durable.phase = .post_boot := by simpa using post_boot
    have agrees := invariant.2
    simp only [PhaseAgrees, phase_eq] at agrees
    exact .pure invariant fun _ => all_new invariant.1 agrees.1 agrees.2
  split
  · exact .pure invariant (by simp)
  rename_i forward
  have agrees : ForwardAgrees world.durable world := by
    have phases : world.durable.phase = .stage ∨ world.durable.phase = .commit := by
      cases phase_eq : world.durable.phase <;> simp [phase_eq] at forward ⊢
    rcases phases with phase_eq | phase_eq <;> simpa [PhaseAgrees, phase_eq] using invariant.2
  refine .seq (persist_ensures _ invariant invariant.1 agrees) ?_
  rintro ⟨persisted, memory⟩ started started_kept ⟨payload_eq, stamped⟩
  cases persisted with
  | false => exact .pure started_kept (by simp)
  | true =>
    obtain ⟨stamp, memory_eq, durable_eq⟩ := stamped rfl
    dsimp only at memory_eq durable_eq
    have progress : CommitProgress original (memory.payload_count - memory.payload_count)
        memory started := by
      subst memory_eq
      refine ⟨invariant.1, rfl, ?_, fun _ _ position_lt => by omega⟩
      intro entry member committed
      rw [payload_eq]
      exact agrees entry member committed
    have started_phase : started.durable.phase = .commit := by rw [durable_eq, memory_eq]; rfl
    refine .seq
      (commitPayloads_ensures _ started_kept started_phase .refl progress) ?_
    rintro ⟨status, memory⟩ finished finished_kept complete
    cases status with
    | invalid | conflict | io => exact .pure finished_kept (by simp)
    | ok =>
      have finished_progress := complete rfl
      have all := finished_progress.all .refl
      refine .seq (verifyTargets_ensures memory.payloads finished_kept) ?_
      rintro status after after_kept rfl
      cases status with
      | invalid | conflict | io => exact .pure after_kept (by simp)
      | ok =>
        have post_boot : PhaseAgrees (recount { memory with phase := .post_boot }) after :=
          ⟨finished_progress.agrees, all⟩
        refine .seq
          (persist_ensures _ after_kept finished_progress.same post_boot) ?_
        rintro ⟨persisted, final⟩ later later_kept ⟨payload_eq, -⟩
        cases persisted with
        | false => exact .pure later_kept (by simp)
        | true =>
          refine .pure later_kept fun _ => ?_
          intro entry member
          rw [payload_eq]
          exact all_new finished_progress.same finished_progress.agrees all entry member

/-- The payloads from the cursor on are rolled back in memory and, where replaced, on disk. -/
structure RollbackProgress (original : TransactionJournal) (cursor : Nat)
    (journal : TransactionJournal) (world : RecoveryWorld) : Prop where
  same : unmarked journal = unmarked original
  phase : journal.phase = .rollback
  agrees : ReverseAgrees journal world
  above : ∀ index entry, cursor ≤ index → journal.payloads[index]? = some entry → entry.rolled_back

theorem RollbackProgress.phaseAgrees
    (progress : RollbackProgress original cursor journal world) : PhaseAgrees journal world := by
  simpa [PhaseAgrees, progress.phase] using progress.agrees

theorem RollbackProgress.all (progress : RollbackProgress original 0 journal world) :
    ∀ entry ∈ journal.payloads, entry.rolled_back := by
  intro entry member
  obtain ⟨index, inside, element⟩ := List.getElem_of_mem member
  exact progress.above index entry (Nat.zero_le _)
    (List.getElem?_eq_some_iff.mpr ⟨inside, element⟩)

theorem RollbackProgress.mark (progress : RollbackProgress original (cursor + 1) journal world)
    (found : journal.payloads[cursor]? = some entry)
    (undone : entry.replace_required → world.payload entry.targetText = .uncommitted) :
    RollbackProgress original cursor
      (recount (journal.setPayload cursor { entry with committed := false, rolled_back := true }))
      world where
  same :=
    (unmarked_setPayload { entry with committed := false, rolled_back := true }
      found rfl).trans progress.same
  phase := progress.phase
  agrees := by
    intro other member rolled_back required
    rcases mem_setPayload member with rfl | old
    · exact undone required
    · exact progress.agrees other old rolled_back required
  above := by
    intro position other position_ge element
    rw [recount_payloads, setPayload_payloads, List.getElem?_set] at element
    split at element
    · split at element
      · rw [← Option.some.inj element]
      · cases element
    · exact progress.above position other (by omega) element

theorem rollbackTarget_ensures (entry : JournalPayload)
    (invariant : RecoveryInvariant original world) (durable_phase : world.durable.phase = .rollback)
    (progress : RollbackProgress original cursor journal world) :
    Ensures recoveryDevice (RecoveryInvariant original)
      (fun status after => status = .ok → after.durable.phase = .rollback ∧
        RollbackProgress original cursor journal after ∧
        (entry.replace_required → after.payload entry.targetText = .uncommitted))
      (rollbackTarget entry) world := by
  unfold rollbackTarget
  split
  · refine .perform invariant fun status after transition => ?_
    obtain rfl : after = if status = .ok then world.move entry .uncommitted else world := transition
    have moved : RecoveryInvariant original (world.move entry .uncommitted) := by
      refine ⟨invariant.1, ?_⟩
      have agrees := invariant.2
      simp only [PhaseAgrees, durable_phase] at agrees
      simpa [PhaseAgrees, RecoveryWorld.move, durable_phase] using
        agrees.move_uncommitted entry
    cases status with
    | ok =>
      refine ⟨moved, fun _ => ⟨durable_phase, ?_, fun _ => Function.update_self ..⟩⟩
      exact ⟨progress.same, progress.phase, progress.agrees.move_uncommitted entry, progress.above⟩
    | conflict | io => exact ⟨invariant, by simp⟩
  · rename_i kept
    exact .pure invariant fun _ =>
      ⟨durable_phase, progress, fun required => absurd required kept⟩

theorem markRolledBack_ensures
    (invariant : RecoveryInvariant original world) (durable_phase : world.durable.phase = .rollback)
    (progress : RollbackProgress original (cursor + 1) journal world)
    (found : journal.payloads[cursor]? = some entry)
    (undone : entry.replace_required → world.payload entry.targetText = .uncommitted) :
    Ensures recoveryDevice (RecoveryInvariant original)
      (fun answer after => answer.1 = true → after.durable.phase = .rollback ∧
        RollbackProgress original cursor answer.2 after)
      (markRolledBack journal cursor entry) world := by
  unfold markRolledBack
  split
  · rename_i rolled_back
    refine .pure invariant fun _ =>
      ⟨durable_phase, progress.same, progress.phase, progress.agrees, ?_⟩
    intro position other position_ge element
    by_cases here : position = cursor
    · subst here
      rw [found] at element
      exact Option.some.inj element ▸ rolled_back
    · exact progress.above position other (by omega) element
  · have marked := progress.mark found undone
    refine (persist_ensures _ invariant marked.same marked.phaseAgrees).mono (fun _ kept => kept) ?_
    rintro ⟨persisted, memory⟩ after - ⟨payload_eq, stamped⟩ durable
    obtain ⟨stamp, memory_eq, durable_eq⟩ := stamped durable
    dsimp only at memory_eq durable_eq ⊢
    subst memory_eq
    refine ⟨by simp [durable_eq, progress.phase], marked.same, marked.phase, ?_, marked.above⟩
    intro other member rolled_back required
    rw [payload_eq]
    exact marked.agrees other member rolled_back required

/-- The rollback loop never breaks the invariant and returns `ok` only with every payload undone. -/
theorem rollbackPayloads_ensures (cursor : Nat) {journal : TransactionJournal}
    {world : RecoveryWorld} (invariant : RecoveryInvariant original world)
    (durable_phase : world.durable.phase = .rollback)
    (progress : RollbackProgress original cursor journal world) :
    Ensures recoveryDevice (RecoveryInvariant original)
      (fun answer after => answer.1 = .ok → RollbackProgress original 0 answer.2 after)
      (rollbackPayloads cursor journal) world := by
  induction cursor generalizing journal world with
  | zero => exact .pure invariant fun _ => progress
  | succ cursor induction =>
    rw [rollbackPayloads]
    split
    · exact .pure invariant (by simp)
    · rename_i entry found
      refine .seq (rollbackTarget_ensures entry invariant durable_phase progress) ?_
      intro status after kept outcome
      cases status with
      | conflict | io => exact .pure kept (by simp)
      | ok =>
        obtain ⟨phase_eq, progressed, undone⟩ := outcome rfl
        refine .seq
          (markRolledBack_ensures kept phase_eq progressed found undone) ?_
        rintro ⟨persisted, memory⟩ later later_kept marked
        cases persisted with
        | false => exact .pure later_kept (by simp)
        | true =>
          obtain ⟨later_phase, later_progress⟩ := marked rfl
          exact induction later_kept later_phase later_progress

theorem not_rolled_back_of_valid (valid : journalValid journal = true)
    (forward : journal.phase = .stage ∨ journal.phase = .commit ∨ journal.phase = .post_boot) :
    ∀ entry ∈ journal.payloads, ¬ entry.rolled_back := by
  simp only [journalValid, Bool.and_eq_true, beq_iff_eq] at valid
  obtain ⟨⟨-, count_eq⟩, counts⟩ := valid
  have zero : journal.rollback_count = 0 := by
    rcases forward with phase_eq | phase_eq | phase_eq <;>
      simp only [phaseCountsValid, phase_eq, Bool.and_eq_true, beq_iff_eq] at counts
    · exact counts.2
    · exact counts
    · exact counts.2
  rw [zero, List.countP_eq_zero] at count_eq
  exact count_eq

/-- Reverse replay of the durable journal keeps the invariant at every cut, and `ok` means that every
replaced payload is uncommitted again and the durable journal says so. -/
theorem rollbackToTerminal_ensures (invariant : RecoveryInvariant original world) :
    Ensures recoveryDevice (RecoveryInvariant original)
      (fun answer after => answer.1 = .ok →
        (∀ entry ∈ original.payloads, entry.replace_required →
          after.payload entry.targetText = .uncommitted) ∧
        after.durable.phase = .rolled_back)
      (rollbackToTerminal world.durable) world := by
  have all_old {journal : TransactionJournal} {after : RecoveryWorld}
      (same : unmarked journal = unmarked original) (agrees : ReverseAgrees journal after)
      (all : ∀ entry ∈ journal.payloads, entry.rolled_back) :
      ∀ entry ∈ original.payloads, entry.replace_required →
        after.payload entry.targetText = .uncommitted := by
    intro entry member required
    obtain ⟨twin, twin_mem, target_eq, required_eq⟩ := mem_of_unmarked_eq same member
    exact target_eq ▸ agrees twin twin_mem (all twin twin_mem) (required_eq ▸ required)
  unfold rollbackToTerminal
  split
  · exact .pure invariant (by simp)
  rename_i admitted
  have valid : journalValid world.durable = true := by
    simp only [Bool.or_eq_true, Bool.not_eq_true', not_or] at admitted
    simpa using admitted.1.1
  have phases := invariant.2
  split
  · rename_i rolled_back
    have phase_eq : world.durable.phase = .rolled_back := by simpa using rolled_back
    simp only [PhaseAgrees, phase_eq] at phases
    exact .pure invariant fun _ => ⟨all_old invariant.1 phases.1 phases.2, phase_eq⟩
  rename_i running
  have agrees : ReverseAgrees world.durable world := by
    cases phase_eq : world.durable.phase with
    | rollback => simpa [PhaseAgrees, phase_eq] using phases
    | stage | commit | post_boot =>
      intro entry member rolled_back
      exact absurd rolled_back (not_rolled_back_of_valid valid (by simp [phase_eq]) entry member)
    | rolled_back => simp [phase_eq] at running
    | prepare | verify | inventory | applied | cleanup => simp [PhaseAgrees, phase_eq] at phases
  refine .seq (persist_ensures (recount { world.durable with
    phase := .rollback, rollback_markers_present := true }) invariant invariant.1 agrees) ?_
  rintro ⟨persisted, memory⟩ started started_kept ⟨payload_eq, stamped⟩
  cases persisted with
  | false => exact .pure started_kept (by simp)
  | true =>
    obtain ⟨stamp, memory_eq, durable_eq⟩ := stamped rfl
    dsimp only at memory_eq durable_eq
    have progress : RollbackProgress original memory.payload_count memory started := by
      subst memory_eq
      refine ⟨invariant.1, rfl, ?_, ?_⟩
      · intro entry member rolled_back required
        rw [payload_eq]
        exact agrees entry member rolled_back required
      · intro index entry outside element
        have inside := (List.getElem?_eq_some_iff.mp element).1
        exact absurd inside (Nat.not_lt.mpr outside)
    have started_phase : started.durable.phase = .rollback := by rw [durable_eq, memory_eq]; rfl
    refine .seq (rollbackPayloads_ensures _ started_kept started_phase progress) ?_
    rintro ⟨status, memory⟩ finished finished_kept complete
    cases status with
    | invalid | conflict | io => exact .pure finished_kept (by simp)
    | ok =>
      have finished_progress := complete rfl
      have terminal : PhaseAgrees (recount { memory with phase := .rolled_back }) finished :=
        ⟨finished_progress.agrees, finished_progress.all⟩
      refine .seq (persist_ensures _ finished_kept finished_progress.same terminal) ?_
      rintro ⟨persisted, final⟩ later later_kept ⟨payload_eq, stamped⟩
      cases persisted with
      | false => exact .pure later_kept (by simp)
      | true =>
        obtain ⟨stamp, memory_eq, durable_eq⟩ := stamped rfl
        dsimp only at memory_eq durable_eq
        refine .pure later_kept fun _ => ⟨?_, by rw [durable_eq, memory_eq]; rfl⟩
        intro entry member required
        rw [payload_eq]
        exact all_old finished_progress.same finished_progress.agrees finished_progress.all
          entry member required

end Replay

/-- One restart: a forward or a reverse replay of the durable journal, cut at any point. -/
inductive Restart : RecoveryWorld → RecoveryWorld → Prop
  | forward {before after : RecoveryWorld} {outcome : Option (ReplayStatus × TransactionJournal)}
      (execution : Execution recoveryDevice (resumeBatchForward before.durable) before outcome after) :
      Restart before after
  | reverse {before after : RecoveryWorld} {outcome : Option (ReplayStatus × TransactionJournal)}
      (execution : Execution recoveryDevice (rollbackToTerminal before.durable) before outcome after) :
      Restart before after

theorem RecoveryInvariant.restart {original : TransactionJournal} {before after : RecoveryWorld}
    (invariant : RecoveryInvariant original before) (restart : Restart before after) :
    RecoveryInvariant original after := by
  cases restart with
  | forward execution => exact ((resumeBatchForward_ensures invariant).sound execution).1
  | reverse execution => exact ((rollbackToTerminal_ensures invariant).sound execution).1

theorem RecoveryInvariant.restarts {original : TransactionJournal} {before after : RecoveryWorld}
    (invariant : RecoveryInvariant original before)
    (restarts : Relation.ReflTransGen Restart before after) : RecoveryInvariant original after := by
  induction restarts with
  | refl => exact invariant
  | tail _ restart induction => exact induction.restart restart

/-- A batch journal whose markers agree with the disk starts inside the invariant. -/
theorem MarkersAgree.invariant {world : RecoveryWorld} (agree : MarkersAgree world)
    (forward : world.durable.phase = .stage ∨ world.durable.phase = .commit) :
    RecoveryInvariant world.durable world := by
  refine ⟨rfl, ?_⟩
  rcases forward with phase_eq | phase_eq <;> simpa [PhaseAgrees, phase_eq] using agree.marked

/-- Crash atomicity of a restart batch: after any number of cut or failed replays in either direction,
a forward replay that answers `ok` leaves every target new, and a reverse replay that answers `ok`
leaves every replaced payload uncommitted under a durable journal that says `rolled_back`. -/
theorem restart_batch_crash_atomic {start world : RecoveryWorld}
    (phase : start.durable.phase = .stage ∨ start.durable.phase = .commit)
    (agree : MarkersAgree start) (restarts : Relation.ReflTransGen Restart start world) :
    (∀ journal after,
      Execution recoveryDevice (resumeBatchForward world.durable) world (some (.ok, journal)) after →
        ∀ entry ∈ start.durable.payloads, after.payload entry.targetText = .committed) ∧
    (∀ journal after,
      Execution recoveryDevice (rollbackToTerminal world.durable) world (some (.ok, journal)) after →
        (∀ entry ∈ start.durable.payloads, entry.replace_required →
          after.payload entry.targetText = .uncommitted) ∧
        after.durable.phase = .rolled_back) := by
  have invariant := (agree.invariant phase).restarts restarts
  constructor
  · intro journal after execution
    exact ((resumeBatchForward_ensures invariant).sound execution).2 _ rfl rfl
  · intro journal after execution
    exact ((rollbackToTerminal_ensures invariant).sound execution).2 _ rfl rfl

/-- The sample batch before its replay. -/
def sampleStart : RecoveryWorld := { payload := fun _ => .uncommitted, durable := sampleBatch }

/-- The sample batch after a cut between the commit of its payload and the marker. -/
def sampleCut : RecoveryWorld :=
  { payload := Function.update (fun _ => .uncommitted) samplePayload.targetText .committed
    durable := (recount { sampleBatch with phase := .commit }).stamp ⟨1, 2⟩ }

theorem sampleCut_restart : Restart sampleStart sampleCut := by
  let started : RecoveryWorld :=
    { sampleStart with durable := (recount { sampleBatch with phase := .commit }).stamp ⟨1, 2⟩ }
  have valid : journalValid sampleBatch = true := by decide +kernel
  have persisted : recoveryDevice (.persist (recount { sampleBatch with phase := .commit }))
      sampleStart (some ⟨1, 2⟩ : Option Stamp) started := rfl
  have committed : recoveryDevice (.commitPayload samplePayload) started MutationStatus.ok
      sampleCut := rfl
  have execution : Execution recoveryDevice (resumeBatchForward sampleBatch) sampleStart none
      sampleCut := by
    simp only [resumeBatchForward, valid]
    exact .call persisted (.call committed (.crash _ _))
  exact .forward execution

theorem restart_batch_crash_atomic_sample :
    (∀ journal after,
      Execution recoveryDevice (resumeBatchForward sampleCut.durable) sampleCut
          (some (.ok, journal)) after →
        ∀ entry ∈ sampleBatch.payloads, after.payload entry.targetText = .committed) ∧
    (∀ journal after,
      Execution recoveryDevice (rollbackToTerminal sampleCut.durable) sampleCut
          (some (.ok, journal)) after →
        (∀ entry ∈ sampleBatch.payloads, entry.replace_required →
          after.payload entry.targetText = .uncommitted) ∧
        after.durable.phase = .rolled_back) := by
  have agree : MarkersAgree sampleStart := by
    refine ⟨?_, fun _ _ _ _ _ => rfl⟩
    intro entry member committed
    rw [List.mem_singleton.mp member] at committed
    cases committed
  exact restart_batch_crash_atomic (.inl rfl) agree
    (.single sampleCut_restart)

end R4OS.Update
