import R4OS.Persistence.SaveStore

/-!
# Crash safety of the save store

Stage writes become visible as a whole, deletions and queries are atomic, and a replacement passes
through two durable states and may stop after each of them.  Whatever is cut, failed or repeated,
one of the three files holds a complete snapshot, and reads return the last acknowledged snapshot or
a later one.
-/

namespace R4OS.Persistence

open Crash Text

/-- The three files of a save, and what the target held whenever the backup was removed. -/
structure SaveFiles where
  target : Option Bytes
  stage : Option Bytes
  backup : Option Bytes
  removals : List (Option Bytes)

namespace SaveFiles

def content (files : SaveFiles) : FileName → Option Bytes
  | .target => files.target
  | .stage => files.stage
  | .backup => files.backup
  | .transaction => none

/-- The files without one of them. -/
def remove (files : SaveFiles) : FileName → SaveFiles
  | .target => { files with target := none }
  | .stage => { files with stage := none }
  | .backup =>
    { files with
      backup := none
      removals := if files.backup.isSome then files.removals ++ [files.target]
        else files.removals }
  | .transaction => files

/-- The next durable state of a replacement. -/
def advance (files : SaveFiles) : SaveFiles :=
  match files.target, files.stage, files.backup with
  | some old, some _, none => { files with target := none, backup := some old }
  | none, some new, _ => { files with target := some new, stage := none }
  | _, _, _ => files

def publish (files : SaveFiles) (bytes : Bytes) : SaveFiles := { files with stage := some bytes }

theorem advance_twice (files : SaveFiles) :
    files.advance.advance.advance = files.advance.advance := by
  obtain ⟨target, stage, backup, removals⟩ := files
  cases target <;> cases stage <;> cases backup <;> rfl

theorem remove_twice (files : SaveFiles) (name : FileName) :
    (files.remove name).remove name = files.remove name := by
  cases name <;> rfl

end SaveFiles

/-- The durable files and the bytes of an open stage stream. -/
structure SaveWorld where
  files : SaveFiles
  stream : Option Bytes

/-- Honest answers of a query. -/
def FileInfoResult.describes : FileInfoResult → Option Bytes → Prop
  | .value is_dir size, content => is_dir = false ∧ content.map List.length = some size
  | .missing, content => content = none
  | .failure _, _ => True

/-- Honest answers of a read. -/
def Transfer.describes (offset length : Nat) : Transfer → Option Bytes → Prop
  | .bytes data, content => data.length ≤ length ∧
      ∃ bytes, content = some bytes ∧ data = (bytes.drop offset).take data.length
  | .end, _ | .failure _, _ => True

/-- What the file calls answer and do.  Everything that a failure may have done is allowed. -/
def saveDevice : Device (Reply BackendError FileCall.Value) SaveWorld
  | .info name, before, reply, after => after = before ∧ ∃ value : FileInfoResult,
      reply = .ok value ∧ (name ≠ .transaction → value.describes (before.files.content name))
  | .delete name, before, reply, after => ∃ value : FileOperation, reply = .ok value ∧
      (after = { before with files := before.files.remove name } ∨
        after = before ∧ ∃ fault, value = .failure fault)
  | .readAt name offset length, before, reply, after => after = before ∧ ∃ value : Transfer,
      reply = .ok value ∧ value.describes offset length (before.files.content name)
  | .replaceAtomic, before, reply, after => ∃ value : AtomicReplaceResult, reply = .ok value ∧
      after.stream = before.stream ∧
      (after.files = before.files.advance.advance ∧ after.files.stage = none ∨
        value ≠ .ok ∧ (after.files = before.files ∨ after.files = before.files.advance ∨
          after.files = before.files.advance.advance))
  | .streamBegin, before, reply, after => ∃ value : Option FileFault, reply = .ok value ∧
      after.files = before.files ∧ (value = none → after.stream = some [])
  | .streamWrite data, before, reply, after => ∃ value : FileOperation, reply = .ok value ∧
      after.files = before.files ∧ (value = .ok → after.stream = before.stream.map (· ++ data))
  | .streamFinish, before, reply, after => ∃ value : FileOperation, reply = .ok value ∧
      ((∃ bytes, before.stream = some bytes ∧ after.files = before.files.publish bytes) ∨
        value ≠ .ok ∧ after.files = before.files)
  | .streamAbort, before, reply, after => reply = .ok () ∧
      (after.files = before.files ∨ after.files = before.files.remove .stage)
  | .leaseCreate, before, reply, after | .leaseAbort, before, reply, after =>
    after = before ∧ ∃ value : Option FileFault, reply = .ok value
  | .leaseWrite _, before, reply, after | .leaseFinish, before, reply, after =>
    after = before ∧ ∃ value : FileOperation, reply = .ok value
  | .sleep, before, reply, after => after = before ∧ reply = .ok ()

/-- The first target, the snapshots that writes were asked for, and the last acknowledged one. -/
structure Ledger where
  initial : Option Bytes
  asked : List Bytes := []
  acknowledged : Nat := 0

/-- The snapshots in order, the first target before all of them. -/
def Ledger.version (ledger : Ledger) : Nat → Option Bytes
  | 0 => ledger.initial
  | index + 1 => ledger.asked[index]?

def Ledger.ask (ledger : Ledger) (bytes : Bytes) : Ledger :=
  { ledger with asked := ledger.asked ++ [bytes] }

/-- The ledger after the last write was acknowledged. -/
def Ledger.acknowledge (ledger : Ledger) : Ledger :=
  { ledger with acknowledged := ledger.asked.length }

/-- Where the snapshots stand. -/
inductive Placed (ledger : Ledger) (files : SaveFiles) : Prop
  | clean (held : Nat) (recent : ledger.acknowledged ≤ held) (known : held ≤ ledger.asked.length)
      (target : files.target = ledger.version held) (stage : files.stage = none)
      (backup : files.backup = none)
  | staged (held next : Nat) (new : Bytes) (recent : ledger.acknowledged ≤ held)
      (order : held < next) (new_eq : ledger.version next = some new)
      (target : files.target = ledger.version held) (stage : files.stage = some new)
      (backup : files.backup = none)
  | moved (held next : Nat) (old new : Bytes) (recent : ledger.acknowledged ≤ held)
      (order : held < next) (old_eq : ledger.version held = some old)
      (new_eq : ledger.version next = some new) (target : files.target = none)
      (stage : files.stage = some new) (backup : files.backup = some old)
  | published (held next : Nat) (old new : Bytes) (recent : ledger.acknowledged ≤ next)
      (order : held < next) (old_eq : ledger.version held = some old)
      (new_eq : ledger.version next = some new) (target : files.target = some new)
      (stage : files.stage = none) (backup : files.backup = some old)

/-- What holds wherever an execution stops. -/
structure SaveSound (ledger : Ledger) (size : Nat) (world : SaveWorld) : Prop where
  placed : Placed ledger world.files
  removals : ∀ held ∈ world.files.removals, ∃ data : Bytes, held = some data ∧ data.length = size

section Ledger

variable {ledger : Ledger} {size : Nat} {files : SaveFiles} {world after : SaveWorld}

theorem Ledger.version_le {held next : Nat} {bytes : Bytes} (order : held < next)
    (found : ledger.version next = some bytes) : next ≤ ledger.asked.length := by
  cases next with
  | zero => cases order
  | succ index => exact (List.getElem?_eq_some_iff.mp found).1

theorem Placed.advance (placed : Placed ledger files) : Placed ledger files.advance := by
  cases placed with
  | clean held recent known target stage backup =>
    have same : files.advance = files := by
      rw [SaveFiles.advance, stage, backup]
      cases files.target <;> rfl
    rw [same]
    exact .clean held recent known target stage backup
  | staged held next new recent order new_eq target stage backup =>
    cases old_eq : ledger.version held with
    | none =>
      rw [old_eq] at target
      rw [SaveFiles.advance, target, stage]
      exact .clean next (by omega) (Ledger.version_le order new_eq) new_eq.symm rfl backup
    | some old =>
      rw [old_eq] at target
      rw [SaveFiles.advance, target, stage, backup]
      exact .moved held next old new recent order old_eq new_eq rfl rfl rfl
  | moved held next old new recent order old_eq new_eq target stage backup =>
    rw [SaveFiles.advance, target, stage]
    exact .published held next old new (by omega) order old_eq new_eq rfl rfl backup
  | published held next old new recent order old_eq new_eq target stage backup =>
    have same : files.advance = files := by rw [SaveFiles.advance, target, stage, backup]
    rw [same]
    exact .published held next old new recent order old_eq new_eq target stage backup

theorem SaveFiles.advance_removals (files : SaveFiles) :
    files.advance.removals = files.removals := by
  unfold SaveFiles.advance
  split <;> rfl

theorem SaveSound.congr (sound : SaveSound ledger size world) (same : after.files = world.files) :
    SaveSound ledger size after := by
  obtain ⟨placed, removals⟩ := sound
  exact ⟨same ▸ placed, same ▸ removals⟩

theorem SaveSound.advance (sound : SaveSound ledger size world)
    (moved : after.files = world.files.advance) : SaveSound ledger size after := by
  obtain ⟨placed, removals⟩ := sound
  refine ⟨moved ▸ placed.advance, ?_⟩
  rw [moved, SaveFiles.advance_removals]
  exact removals

end Ledger

section Quiet

variable {always : SaveWorld → Prop} {world : SaveWorld} {attempts : Nat}

variable {name : FileName}

variable (always_now : always world)

include always_now

theorem file_quiet {operation : FileCall} {fact : operation.Value → Prop}
    (quiet : ∀ reply after, saveDevice operation world reply after →
      after = world ∧ ∀ value, reply = .ok value → fact value) :
    Keeps saveDevice always (fun value after => after = world ∧ fact value) (file operation)
      world := by
  refine .call always_now fun reply after transition => ?_
  obtain ⟨rfl, facts⟩ := quiet reply after transition
  exact ⟨always_now, fun value answered => ⟨rfl, facts value answered⟩⟩

theorem file_silent {operation : FileCall}
    (silent : ∀ reply after, saveDevice operation world reply after → after = world) :
    Keeps saveDevice always (fun _ after => after = world ∧ True) (file operation) world :=
  file_quiet always_now fun reply after transition =>
    ⟨silent reply after transition, fun _ _ => trivial⟩

theorem sleep_keeps :
    Keeps saveDevice always (fun _ after => after = world ∧ True) (file .sleep) world :=
  file_silent always_now fun _ _ transition => transition.1

theorem info_keeps (real : name ≠ .transaction) :
    Keeps saveDevice always
      (fun (value : FileInfoResult) after =>
        after = world ∧ value.describes (world.files.content name))
      (file (.info name)) world := by
  refine file_quiet always_now fun reply after transition => ?_
  obtain ⟨rfl, value, rfl, honest⟩ := transition
  refine ⟨rfl, fun other same => ?_⟩
  rw [← Except.ok.inj same]
  exact honest real

theorem pathSizeWithRetry_keeps (real : name ≠ .transaction) :
    Keeps saveDevice always
      (fun size after => after = world ∧ size = (world.files.content name).map List.length)
      (pathSizeWithRetry name attempts) world := by
  induction attempts with
  | zero => exact .throw always_now
  | succ attempts induction =>
    refine .bind_same (info_keeps always_now real) fun value honest => ?_
    cases value with
    | value is_dir size =>
      obtain ⟨rfl, sized⟩ := honest
      exact .pure always_now ⟨rfl, sized.symm⟩
    | missing => exact .pure always_now ⟨rfl, by rw [honest]; rfl⟩
    | failure fault =>
      dsimp only
      split
      · exact .throw always_now
      · exact .bind_same (sleep_keeps always_now) fun _ _ => induction

theorem pathExistsWithRetry_keeps (real : name ≠ .transaction) :
    Keeps saveDevice always
      (fun present after => after = world ∧ present = (world.files.content name).isSome)
      (pathExistsWithRetry name attempts) world := by
  refine .bind_same (pathSizeWithRetry_keeps always_now real) fun size sized => ?_
  exact .pure always_now ⟨rfl, by rw [sized, Option.isSome_map]⟩

theorem pathSizeVisibleWithRetry_keeps (real : name ≠ .transaction) :
    Keeps saveDevice always
      (fun size after => after = world ∧ size = (world.files.content name).map List.length)
      (pathSizeVisibleWithRetry name attempts) world := by
  induction attempts with
  | zero => exact .throw always_now
  | succ attempts induction =>
    refine .bind_same (info_keeps always_now real) fun value honest => ?_
    cases value with
    | value is_dir size =>
      obtain ⟨rfl, sized⟩ := honest
      exact .pure always_now ⟨rfl, sized.symm⟩
    | missing =>
      dsimp only
      split
      · exact .pure always_now ⟨rfl, by rw [honest]; rfl⟩
      · exact .bind_same (sleep_keeps always_now) fun _ _ => induction
    | failure fault =>
      dsimp only
      split
      · exact .throw always_now
      · exact .bind_same (sleep_keeps always_now) fun _ _ => induction

theorem readAt_keeps (name : FileName) (offset length : Nat) :
    Keeps saveDevice always
      (fun (value : Transfer) after =>
        after = world ∧ value.describes offset length (world.files.content name))
      (file (.readAt name offset length)) world := by
  refine file_quiet always_now fun reply after transition => ?_
  obtain ⟨rfl, value, rfl, honest⟩ := transition
  refine ⟨rfl, fun other same => ?_⟩
  rw [← Except.ok.inj same]
  exact honest

theorem readAtWithRetry_keeps (name : FileName) (offset length : Nat) :
    Keeps saveDevice always (fun _ after => after = world ∧ True)
      (readAtWithRetry name offset length attempts) world := by
  induction attempts with
  | zero => exact .throw always_now
  | succ attempts induction =>
    refine .bind_same (readAt_keeps always_now name offset length) fun value _ => ?_
    cases value with
    | bytes data => exact .pure always_now ⟨rfl, trivial⟩
    | «end» => exact .throw always_now
    | failure fault =>
      dsimp only
      split
      · exact .throw always_now
      · exact .bind_same (sleep_keeps always_now) fun _ _ => induction

theorem readRecordRounds_keeps (name : FileName) (length rounds : Nat) (encoded : Bytes) :
    Keeps saveDevice always (fun _ after => after = world ∧ True)
      (readRecordRounds name length rounds encoded) world := by
  induction rounds generalizing encoded with
  | zero =>
    unfold readRecordRounds
    split
    · exact .pure always_now ⟨rfl, trivial⟩
    · exact .throw always_now
  | succ rounds induction =>
    unfold readRecordRounds
    split
    · exact .pure always_now ⟨rfl, trivial⟩
    refine .bind_same (readAtWithRetry_keeps always_now _ _ _) fun data _ => ?_
    split
    · exact .throw always_now
    · exact induction _

theorem validateKindAt_keeps (configuration : Configuration) (kind : FileKind) (name : FileName) :
    Keeps saveDevice always (fun _ after => after = world ∧ True)
      (validateKindAt configuration kind name) world := by
  unfold validateKindAt
  split
  · unfold validateRecordAt
    dsimp only
    split
    · exact .throw always_now
    · refine .bind_same (readRecordRounds_keeps always_now _ _ _ _) fun encoded _ => ?_
      exact .require always_now fun _ => ⟨rfl, trivial⟩
  · exact .pure always_now ⟨rfl, trivial⟩

theorem abortOwnedPathWithRetry_keeps :
    Keeps saveDevice always (fun _ after => after = world ∧ True)
      (abortOwnedPathWithRetry attempts) world := by
  induction attempts with
  | zero => exact .pure always_now ⟨rfl, trivial⟩
  | succ attempts induction =>
    refine .bind_same (file_silent always_now fun _ _ transition => transition.1)
      fun value _ => ?_
    split
    · exact .pure always_now ⟨rfl, trivial⟩
    · exact .pure always_now ⟨rfl, trivial⟩
    · split
      · exact .pure always_now ⟨rfl, trivial⟩
      · exact .bind_same (sleep_keeps always_now) fun _ _ => induction

theorem abandonLease_keeps (fault : FileFault) (last : Bool) :
    Keeps saveDevice always (fun _ after => after = world ∧ True) (abandonLease fault last)
      world := by
  refine .bind_same (abortOwnedPathWithRetry_keeps always_now) fun released _ => ?_
  split
  · split
    · exact .throw always_now
    · exact sleep_keeps always_now
  · exact .throw always_now

theorem createLease_keeps :
    Keeps saveDevice always (fun _ after => after = world ∧ True) (createLease attempts) world := by
  induction attempts with
  | zero => exact .throw always_now
  | succ attempts induction =>
    have again (fault : FileFault) (last : Bool) :
        Keeps saveDevice always (fun _ after => after = world ∧ True)
          (abandonLease fault last >>= fun _ => createLease attempts) world :=
      Keeps.bind_same (abandonLease_keeps always_now fault last) fun _ _ => induction
    refine .bind_same (file_silent always_now fun _ _ transition => transition.1) fun created _ => ?_
    split
    · split
      · exact .throw always_now
      · exact again _ _
    · refine .bind_same (file_silent always_now fun _ _ transition => transition.1) fun written _ => ?_
      split
      · exact again _ _
      · refine .bind_same (file_silent always_now fun _ _ transition => transition.1) fun finished _ => ?_
        split
        · exact again _ _
        · exact .pure always_now ⟨rfl, trivial⟩

end Quiet

section Effects

variable {always : SaveWorld → Prop} {world : SaveWorld} {attempts : Nat}

def SaveWorld.remove (world : SaveWorld) (name : FileName) : SaveWorld :=
  { world with files := world.files.remove name }

/-- A deletion happens at most once, however often it is tried. -/
theorem removeAtomicScratch_keeps {name : FileName} (always_now : always world)
    (always_removed : always (world.remove name)) :
    Keeps saveDevice always (fun _ after => after = world.remove name)
      (removeAtomicScratch name attempts) world := by
  have twice : (world.remove name).remove name = world.remove name := by
    rw [SaveWorld.remove, SaveWorld.remove, SaveFiles.remove_twice]
  have rounds (now : SaveWorld) (reached : now = world ∨ now = world.remove name) :
      Keeps saveDevice always (fun _ after => after = world.remove name)
        (removeAtomicScratch name attempts) now := by
    induction attempts generalizing now with
    | zero => exact .throw (by rcases reached with rfl | rfl <;> assumption)
    | succ attempts induction =>
      have kept : always now := by rcases reached with rfl | rfl <;> assumption
      have removed : now.remove name = world.remove name := by
        rcases reached with rfl | rfl
        · rfl
        · exact twice
      have deleted : Keeps saveDevice always
          (fun (value : FileOperation) after => (after = world ∨ after = world.remove name) ∧
            ((∀ fault, value ≠ .failure fault) → after = world.remove name))
          (file (.delete name)) now := by
        refine .call kept fun reply after transition => ?_
        obtain ⟨value, rfl, gone | ⟨rfl, fault, rfl⟩⟩ := transition
        · obtain rfl : after = world.remove name := gone.trans removed
          exact ⟨always_removed, fun _ _ => ⟨.inr rfl, fun _ => rfl⟩⟩
        · refine ⟨kept, fun other same => ⟨reached, fun answered => ?_⟩⟩
          exact absurd (Except.ok.inj same).symm (answered fault)
      refine .bind deleted fun value after kept reached => ?_
      obtain ⟨reached, finished⟩ := reached
      cases value with
      | ok | missing => exact .pure kept (finished (by rintro _ ⟨⟩))
      | failure fault =>
        dsimp only
        split
        · exact .throw kept
        · exact .bind_same (sleep_keeps kept) fun _ _ => induction after reached
  exact rounds world (.inl rfl)

/-- A replacement passes through its durable states in order, however often it is tried. -/
theorem replaceAtomicWithRetry_keeps (kept : ∀ after, (after.files = world.files ∨
      after.files = world.files.advance ∨ after.files = world.files.advance.advance) →
      always after) :
    Keeps saveDevice always
      (fun _ after => after.files = world.files.advance.advance ∧ after.files.stage = none)
      (replaceAtomicWithRetry attempts) world := by
  have rounds (now : SaveWorld) (reached : now.files = world.files ∨
      now.files = world.files.advance ∨ now.files = world.files.advance.advance) :
      Keeps saveDevice always
        (fun _ after => after.files = world.files.advance.advance ∧ after.files.stage = none)
        (replaceAtomicWithRetry attempts) now := by
    induction attempts generalizing now with
    | zero => exact .throw (kept now reached)
    | succ attempts induction =>
      have once : now.files.advance = world.files.advance ∨
          now.files.advance = world.files.advance.advance := by
        rcases reached with same | same | same <;> rw [same]
        · exact .inl rfl
        · exact .inr rfl
        · exact .inr world.files.advance_twice
      have full : now.files.advance.advance = world.files.advance.advance := by
        rcases once with same | same <;> rw [same]
        exact world.files.advance_twice
      have replaced : Keeps saveDevice always
          (fun (value : AtomicReplaceResult) after =>
            (after.files = world.files ∨ after.files = world.files.advance ∨
              after.files = world.files.advance.advance) ∧
            (value = .ok → after.files = world.files.advance.advance ∧
              after.files.stage = none))
          (file .replaceAtomic) now := by
        refine .call (kept now reached) fun reply after transition => ?_
        obtain ⟨value, rfl, -, ⟨moved, gone⟩ | ⟨failed, moved⟩⟩ := transition
        · have done := moved.trans full
          exact ⟨kept after (.inr (.inr done)), fun _ _ => ⟨.inr (.inr done), fun _ =>
            ⟨done, gone⟩⟩⟩
        · have stopped : after.files = world.files ∨ after.files = world.files.advance ∨
              after.files = world.files.advance.advance := by
            rcases moved with same | same | same
            · exact same ▸ reached
            · exact .inr (same ▸ once)
            · exact .inr (.inr (same.trans full))
          refine ⟨kept after stopped, fun other same => ⟨stopped, fun answered => ?_⟩⟩
          exact absurd ((Except.ok.inj same).trans answered) failed
      refine .bind replaced fun value after always_after reached => ?_
      obtain ⟨reached, finished⟩ := reached
      cases value with
      | ok => exact .pure always_after (finished rfl)
      | unsupported | conflict | missing | bad_path => exact .throw always_after
      | failure fault =>
        dsimp only
        split
        · exact .throw always_after
        · exact .bind_same (sleep_keeps always_after) fun _ _ => induction after reached
  exact rounds world (.inl rfl)

end Effects

section Stage

variable {always : SaveWorld → Prop} {world : SaveWorld} {files : SaveFiles} {bytes : Bytes}

theorem streamWrite_keeps (kept : ∀ after, after.files = files → always after)
    (same : world.files = files) (data : Bytes) :
    Keeps saveDevice always
      (fun (value : FileOperation) after => after.files = files ∧
        (value = .ok → after.stream = world.stream.map (· ++ data)))
      (file (.streamWrite data)) world := by
  refine .call (kept world same) fun reply after transition => ?_
  obtain ⟨value, rfl, files_eq, stream_eq⟩ := transition
  have after_eq := files_eq.trans same
  exact ⟨kept after after_eq, fun other answered => ⟨after_eq, fun success =>
    stream_eq ((Except.ok.inj answered).trans success)⟩⟩

theorem operationFault_eq_none {value : FileOperation} (success : operationFault value = none) :
    value = .ok := by
  cases value <;> cases success
  rfl

theorem writeChunks_keeps (kept : ∀ after, after.files = files → always after)
    (same : world.files = files) {rounds : Nat} {written rest : Bytes}
    (opened : world.stream = some written) (enough : rest.length ≤ rounds) :
    Keeps saveDevice always
      (fun fault after => after.files = files ∧
        (fault = none → after.stream = some (written ++ rest)))
      (writeChunks rounds rest) world := by
  induction rounds generalizing world written rest with
  | zero =>
    obtain rfl := List.length_eq_zero_iff.mp (Nat.le_zero.mp enough)
    exact .pure (kept world same) ⟨same, fun _ => by rw [List.append_nil]; exact opened⟩
  | succ rounds induction =>
    unfold writeChunks
    split
    · next empty =>
        subst empty
        exact .pure (kept world same) ⟨same, fun _ => by rw [List.append_nil]; exact opened⟩
    next some_left =>
    have pos := List.length_pos_of_ne_nil some_left
    have chunk_pos : 0 < stream_chunk := by decide
    refine .bind (streamWrite_keeps kept same _) fun value after _ reached => ?_
    obtain ⟨after_eq, wrote⟩ := reached
    split
    · exact .pure (kept after after_eq) ⟨after_eq, by rintro ⟨⟩⟩
    · next success =>
        have stream_eq := wrote (operationFault_eq_none success)
        rw [opened, Option.map_some] at stream_eq
        refine (induction after_eq stream_eq (by rw [List.length_drop]; omega)).mono ?_
        rintro fault last _ ⟨last_eq, whole⟩
        refine ⟨last_eq, fun finished => ?_⟩
        rw [whole finished, List.append_assoc, List.take_append_drop]

theorem SaveFiles.publish_remove (vacant : files.stage = none) :
    (files.publish bytes).remove .stage = files := by
  cases files
  cases vacant
  rfl

theorem SaveFiles.remove_vacant (vacant : files.stage = none) : files.remove .stage = files := by
  cases files
  cases vacant
  rfl

variable (kept : ∀ after, after.files = files ∨ after.files = files.publish bytes → always after)

include kept

/-- One attempt leaves no stage or the complete one. -/
theorem writeStageSnapshotOnce_keeps (vacant : files.stage = none) (same : world.files = files) :
    Keeps saveDevice always
      (fun fault after => (after.files = files ∨ after.files = files.publish bytes) ∧
        (fault = none → after.files = files.publish bytes))
      (writeStageSnapshotOnce bytes) world := by
  have untouched (after : SaveWorld) (same : after.files = files) : always after :=
    kept after (.inl same)
  have aborted (now : SaveWorld) (fault : FileFault)
      (reached : now.files = files ∨ now.files = files.publish bytes) :
      Keeps saveDevice always
        (fun fault after => (after.files = files ∨ after.files = files.publish bytes) ∧
          (fault = none → after.files = files.publish bytes))
        (file .streamAbort >>= fun _ => pure (some fault)) now := by
    have gave_up : Keeps saveDevice always
        (fun _ after => after.files = files ∨ after.files = files.publish bytes)
        (file .streamAbort) now := by
      refine .call (kept now reached) fun reply after transition => ?_
      obtain ⟨-, left | removed⟩ := transition
      · have still := left ▸ reached
        exact ⟨kept after still, fun _ _ => still⟩
      · have gone : after.files = files := by
          rcases reached with same | same
          · rw [removed, same, SaveFiles.remove_vacant vacant]
          · rw [removed, same, SaveFiles.publish_remove vacant]
        exact ⟨untouched after gone, fun _ _ => .inl gone⟩
    refine .bind gave_up fun _ after always_after stopped => ?_
    exact .pure always_after ⟨stopped, by rintro ⟨⟩⟩
  have begun : Keeps saveDevice always
      (fun (fault : Option FileFault) after => after.files = files ∧
        (fault = none → after.stream = some []))
      (file .streamBegin) world := by
    refine .call (untouched world same) fun reply after transition => ?_
    obtain ⟨value, rfl, files_eq, stream_eq⟩ := transition
    have after_eq := files_eq.trans same
    exact ⟨untouched after after_eq, fun other answered => ⟨after_eq, fun success =>
      stream_eq ((Except.ok.inj answered).trans success)⟩⟩
  refine .bind begun fun value opened always_opened reached => ?_
  obtain ⟨opened_eq, open_stream⟩ := reached
  cases value with
  | some fault => exact .pure always_opened ⟨.inl opened_eq, by rintro ⟨⟩⟩
  | none =>
    refine .bind (writeChunks_keeps untouched opened_eq (open_stream rfl) le_rfl)
      fun value written always_written reached => ?_
    obtain ⟨written_eq, whole⟩ := reached
    cases value with
    | some fault => exact aborted written fault (.inl written_eq)
    | none =>
      have stream_eq : written.stream = some bytes := whole rfl
      have finished : Keeps saveDevice always
          (fun (value : FileOperation) after =>
            (after.files = files ∨ after.files = files.publish bytes) ∧
            (value = .ok → after.files = files.publish bytes))
          (file .streamFinish) written := by
        refine .call always_written fun reply after transition => ?_
        obtain ⟨value, rfl, ⟨content, content_eq, published⟩ | ⟨failed, left⟩⟩ := transition
        · obtain rfl := Option.some.inj (content_eq.symm.trans stream_eq)
          rw [written_eq] at published
          exact ⟨kept after (.inr published), fun _ _ => ⟨.inr published, fun _ => published⟩⟩
        · have after_eq := left.trans written_eq
          exact ⟨untouched after after_eq, fun other answered => ⟨.inl after_eq, fun success =>
            absurd ((Except.ok.inj answered).trans success) failed⟩⟩
      refine .bind finished fun value after always_after reached => ?_
      obtain ⟨stopped, success⟩ := reached
      split
      · exact aborted after _ stopped
      · next succeeded =>
          exact .pure always_after ⟨stopped, fun _ =>
            success (operationFault_eq_none succeeded)⟩

/-- The retries end with the complete stage. -/
theorem writeStageSnapshotWithRetry_keeps
    (vacant : files.stage = none) (configuration : Configuration) (kind : FileKind)
    {attempts : Nat} (same : world.files = files) :
    Keeps saveDevice always (fun _ after => after.files = files.publish bytes)
      (writeStageSnapshotWithRetry configuration kind bytes attempts) world := by
  induction attempts generalizing world with
  | zero => exact .throw (kept world (.inl same))
  | succ attempts induction =>
    refine .bind (writeStageSnapshotOnce_keeps kept vacant same)
      fun fault after always_after reached => ?_
    obtain ⟨stopped, success⟩ := reached
    cases fault with
    | some fault =>
      dsimp only
      split
      · exact .throw always_after
      · have gone : (after.remove .stage).files = files := by
          rcases stopped with same | same
          · rw [SaveWorld.remove, same, SaveFiles.remove_vacant vacant]
          · rw [SaveWorld.remove, same, SaveFiles.publish_remove vacant]
        refine .bind (removeAtomicScratch_keeps always_after (kept _ (.inl gone)))
          fun _ removed always_removed removed_eq => ?_
        subst removed_eq
        exact .bind_same (sleep_keeps always_removed) fun _ _ => induction gone
    | none =>
      have published := success rfl
      refine .bind_same (pathSizeVisibleWithRetry_keeps always_after (by decide))
        fun size _ => ?_
      split
      · exact .throw always_after
      · split
        · exact .throw always_after
        · refine (validateKindAt_keeps always_after configuration kind .stage).mono ?_
          rintro _ last _ ⟨rfl, -⟩
          exact published

end Stage

section Transactions

variable {ledger : Ledger} {size : Nat} {world : SaveWorld} {configuration : Configuration}
  {kind : FileKind}

variable {always : SaveWorld → Prop}

section

variable (sound : SaveSound ledger size world)

include sound

theorem SaveSound.without_backup
    (vacant : world.files.stage = none) {data : Bytes} (target : world.files.target = some data)
    (sized : data.length = size) : SaveSound ledger size (world.remove .backup) := by
  obtain ⟨placed, removals⟩ := sound
  constructor
  · cases placed with
    | clean held recent known target stage backup => exact .clean held recent known target stage rfl
    | staged held next new recent order new_eq target stage backup =>
      rw [vacant] at stage
      cases stage
    | moved held next old new recent order old_eq new_eq target stage backup =>
      rw [vacant] at stage
      cases stage
    | published held next old new recent order old_eq new_eq target stage backup =>
      exact .clean next recent (Ledger.version_le order new_eq) (target.trans new_eq.symm) stage rfl
  · intro held member
    simp only [SaveWorld.remove, SaveFiles.remove] at member
    split at member
    · rcases List.mem_append.mp member with member | member
      · exact removals held member
      · exact ⟨data, (List.mem_singleton.mp member).trans target, sized⟩
    · exact removals held member

theorem finishPublished_keeps (vacant : world.files.stage = none) {target_size : Option Nat}
    (seen : target_size = world.files.target.map List.length) :
    Keeps saveDevice (SaveSound ledger size)
      (fun _ after => after = world.remove .backup ∧ world.files.target ≠ none)
      (finishPublished configuration kind size target_size) world := by
  unfold finishPublished
  cases target_size with
  | none => exact .throw sound
  | some found =>
    dsimp only
    split
    · exact .throw sound
    next sized =>
    obtain ⟨data, target, length_eq⟩ := Option.map_eq_some_iff.mp seen.symm
    have removed := sound.without_backup vacant target (length_eq.trans (not_not.mp sized))
    refine .bind_same (validateKindAt_keeps sound configuration kind .target) fun _ _ => ?_
    refine (removeAtomicScratch_keeps sound removed).mono fun _ after _ after_eq => ?_
    exact ⟨after_eq, by rw [target]; exact Option.some_ne_none data⟩

theorem SaveSound.replacing (after : SaveWorld)
    (reached : after.files = world.files ∨ after.files = world.files.advance ∨
      after.files = world.files.advance.advance) : SaveSound ledger size after := by
  rcases reached with same | moved | moved
  · exact sound.congr same
  · exact sound.advance moved
  · have once : SaveSound ledger size { world with files := world.files.advance } :=
      sound.advance rfl
    exact once.advance moved

theorem publishStage_keeps :
    Keeps saveDevice (SaveSound ledger size)
      (fun _ after => after.files = world.files.advance.advance.remove .backup ∧
        world.files.advance.advance.stage = none)
      (publishStage configuration kind size) world := by
  refine .bind (replaceAtomicWithRetry_keeps sound.replacing)
    fun _ replaced always_replaced reached => ?_
  obtain ⟨replaced_eq, vacant⟩ := reached
  refine .bind_same (pathSizeVisibleWithRetry_keeps always_replaced (by decide))
    fun seen seen_eq => ?_
  refine (finishPublished_keeps always_replaced vacant seen_eq).mono fun _ after _ finished => ?_
  obtain ⟨rfl, -⟩ := finished
  exact ⟨congrArg (SaveFiles.remove · .backup) replaced_eq, replaced_eq ▸ vacant⟩

/-- After recovery nothing stands beside the target. -/
theorem recoverAtomicKind_keeps :
    Keeps saveDevice (SaveSound ledger size)
      (fun _ after => after.files.stage = none ∧ after.files.backup = none)
      (recoverAtomicKind configuration kind size) world := by
  refine .bind_same (pathSizeWithRetry_keeps sound (by decide)) fun stage_size stage_eq => ?_
  refine .bind_same (pathExistsWithRetry_keeps sound (by decide)) fun backup_exists backup_eq => ?_
  have looked : Keeps saveDevice (SaveSound ledger size)
      (fun recovery after => after = world ∧ ((stage_size.isNone && backup_exists) = true →
        recovery = world.files.target.map List.length))
      (recoveryTargetSize stage_size backup_exists) world := by
    unfold recoveryTargetSize
    split
    · refine (pathSizeVisibleWithRetry_keeps sound (by decide)).mono ?_
      rintro recovery after _ ⟨rfl, seen⟩
      exact ⟨rfl, fun _ => seen⟩
    · next absent => exact .pure sound ⟨rfl, fun present => absurd present absent⟩
  refine .bind_same looked fun recovery recovery_eq => ?_
  have stage_content : (world.files.content .stage) = world.files.stage := rfl
  have backup_content : (world.files.content .backup) = world.files.backup := rfl
  rw [stage_content] at stage_eq
  rw [backup_content] at backup_eq
  cases stage_size with
  | some found =>
    simp only [classifyAtomicRecovery, Option.isSome_some, if_true]
    split
    · exact .throw sound
    · refine .bind_same (validateKindAt_keeps sound configuration kind .stage) fun _ _ => ?_
      refine (publishStage_keeps sound).mono fun _ after _ finished => ?_
      obtain ⟨after_eq, vacant⟩ := finished
      rw [after_eq]
      exact ⟨vacant, rfl⟩
  | none =>
    have vacant : world.files.stage = none := by
      cases stage : world.files.stage with
      | none => rfl
      | some data =>
        rw [stage] at stage_eq
        cases stage_eq
    cases backup : world.files.backup with
    | none =>
      rw [backup] at backup_eq
      subst backup_eq
      exact .pure sound ⟨vacant, backup⟩
    | some data =>
      rw [backup] at backup_eq
      subst backup_eq
      cases recovery with
      | none => exact .throw sound
      | some found =>
        refine (finishPublished_keeps sound vacant (recovery_eq rfl)).mono ?_
        rintro _ after _ ⟨rfl, -⟩
        exact ⟨vacant, rfl⟩

end

/-- The lease changes none of the files. -/
theorem transact_keeps {post : SaveWorld → Prop} {body : Action Unit} (always_now : always world)
    (inner : Keeps saveDevice always (fun _ after => post after) body world) :
    Keeps saveDevice always (fun _ after => post after) (transact body) world := by
  have taken : Keeps saveDevice always (fun _ after => after = world ∧ True)
      beginAtomicTransaction world := by
    refine .bind (removeAtomicScratch_keeps always_now always_now) fun _ after kept after_eq => ?_
    obtain rfl : after = world := after_eq
    exact createLease_keeps kept
  refine .bind_same taken fun _ _ => ?_
  have released (now : SaveWorld) (kept : always now) :
      Ensures saveDevice always (fun _ after => after = now)
        (abortOwnedPathWithRetry create_retry_attempts).run now := by
    have still : Keeps saveDevice (fun after => after = now) (fun _ after => after = now ∧ True)
        (abortOwnedPathWithRetry create_retry_attempts) now := abortOwnedPathWithRetry_keeps rfl
    exact .mono still (fun _ same => same ▸ kept) fun _ _ same _ => same
  refine .seq inner fun reply after kept reached => ?_
  cases reply with
  | error fault =>
    refine .seq (released after kept) fun _ last kept_last _ => ?_
    exact .pure kept_last (by rintro _ ⟨⟩)
  | ok result =>
    refine .seq (released after kept) fun answer last kept_last same => ?_
    subst same
    split
    · exact .pure kept_last fun _ _ => reached () rfl
    · refine .seq (released last kept_last) fun _ end_world kept_end _ => ?_
      exact .pure kept_end (by rintro _ ⟨⟩)

theorem SaveSound.clean (sound : SaveSound ledger size world) (stage : world.files.stage = none)
    (backup : world.files.backup = none) :
    ∃ held, ledger.acknowledged ≤ held ∧ held ≤ ledger.asked.length ∧
      world.files.target = ledger.version held := by
  cases sound.placed with
  | clean held recent known target _ _ => exact ⟨held, recent, known, target⟩
  | staged held next new recent order new_eq target staged _ =>
    rw [stage] at staged
    cases staged
  | moved held next old new recent order old_eq new_eq target staged _ =>
    rw [stage] at staged
    cases staged
  | published held next old new recent order old_eq new_eq target _ saved =>
    rw [backup] at saved
    cases saved

theorem Ledger.version_ask {index : Nat} (known : index ≤ ledger.asked.length) (bytes : Bytes) :
    (ledger.ask bytes).version index = ledger.version index := by
  cases index with
  | zero => rfl
  | succ index => exact List.getElem?_append_left known

theorem Ledger.version_asked (ledger : Ledger) (bytes : Bytes) :
    (ledger.ask bytes).version (ledger.asked.length + 1) = some bytes :=
  List.getElem?_concat_length

/-- Asking for a write moves nothing. -/
theorem SaveSound.ask (sound : SaveSound ledger size world) (bytes : Bytes) :
    SaveSound (ledger.ask bytes) size world := by
  obtain ⟨placed, removals⟩ := sound
  refine ⟨?_, removals⟩
  cases placed with
  | clean held recent known target stage backup =>
    rw [← Ledger.version_ask known bytes] at target
    exact .clean held recent (by simp [Ledger.ask]; omega) target stage backup
  | staged held next new recent order new_eq target stage backup =>
    have known := Ledger.version_le order new_eq
    rw [← Ledger.version_ask known bytes] at new_eq
    rw [← Ledger.version_ask (by omega) bytes] at target
    exact .staged held next new recent order new_eq target stage backup
  | moved held next old new recent order old_eq new_eq target stage backup =>
    have known := Ledger.version_le order new_eq
    rw [← Ledger.version_ask known bytes] at new_eq
    rw [← Ledger.version_ask (by omega) bytes] at old_eq
    exact .moved held next old new recent order old_eq new_eq target stage backup
  | published held next old new recent order old_eq new_eq target stage backup =>
    have known := Ledger.version_le order new_eq
    rw [← Ledger.version_ask known bytes] at new_eq
    rw [← Ledger.version_ask (by omega) bytes] at old_eq
    exact .published held next old new recent order old_eq new_eq target stage backup

theorem SaveFiles.publish_twice_advanced {files : SaveFiles} (bytes : Bytes)
    (backup : files.backup = none) :
    (files.publish bytes).advance.advance.target = some bytes ∧
      (files.publish bytes).advance.advance.stage = none := by
  obtain ⟨target, stage, saved, removals⟩ := files
  cases backup
  cases target <;> exact ⟨rfl, rfl⟩

/-- A write keeps every snapshot until the new one is published, and ends with the new one. -/
theorem writeAtomicSave_keeps {bytes : Bytes} {held : Bool}
    (sound : SaveSound ledger bytes.length world) :
    Keeps saveDevice (SaveSound (ledger.ask bytes) bytes.length)
      (fun _ after => after.files.target = some bytes ∧ after.files.stage = none ∧
        after.files.backup = none)
      (writeAtomicSave configuration kind held bytes) world := by
  unfold writeAtomicSave
  split
  · exact .throw (sound.ask bytes)
  refine transact_keeps (sound.ask bytes) ?_
  have recovered : Keeps saveDevice (SaveSound (ledger.ask bytes) bytes.length)
      (fun _ after => SaveSound ledger bytes.length after ∧ after.files.stage = none ∧
        after.files.backup = none)
      (recoverAtomicKind configuration kind bytes.length) world :=
    Ensures.mono (recoverAtomicKind_keeps sound) (fun _ kept => kept.ask bytes)
      fun _ _ kept reached result finished => ⟨kept, reached result finished⟩
  refine .bind recovered fun _ clean _ reached => ?_
  obtain ⟨sound_clean, stage, backup⟩ := reached
  obtain ⟨version, recent, known, target⟩ := sound_clean.clean stage backup
  have kept (after : SaveWorld)
      (reached : after.files = clean.files ∨ after.files = clean.files.publish bytes) :
      SaveSound (ledger.ask bytes) bytes.length after := by
    rcases reached with same | staged
    · exact (sound_clean.ask bytes).congr same
    · constructor
      · rw [staged]
        refine .staged version (ledger.asked.length + 1) bytes recent (by omega)
          (ledger.version_asked bytes) ?_ rfl backup
        rw [Ledger.version_ask known]
        exact target
      · rw [staged]
        exact sound_clean.removals
  refine .bind (writeStageSnapshotWithRetry_keeps kept stage configuration kind rfl)
    fun _ staged sound_staged staged_eq => ?_
  refine (publishStage_keeps sound_staged).mono fun _ after _ finished => ?_
  obtain ⟨after_eq, -⟩ := finished
  obtain ⟨new_target, new_stage⟩ := SaveFiles.publish_twice_advanced bytes backup
  rw [staged_eq] at after_eq
  rw [after_eq]
  exact ⟨new_target, new_stage, rfl⟩

theorem SaveSound.acknowledge {bytes : Bytes} (sound : SaveSound (ledger.ask bytes) size world)
    (target : world.files.target = some bytes) (stage : world.files.stage = none)
    (backup : world.files.backup = none) :
    SaveSound (ledger.ask bytes).acknowledge size world := by
  refine ⟨.clean (ledger.asked.length + 1) ?_ ?_ ?_ stage backup, sound.removals⟩
  · simp [Ledger.acknowledge, Ledger.ask]
  · simp [Ledger.acknowledge, Ledger.ask]
  · exact target.trans (ledger.version_asked bytes).symm

/-! ### Reading -/

theorem recoverPendingKind_keeps (sound : SaveSound ledger size world) :
    Keeps saveDevice (SaveSound ledger size)
      (fun _ after => after.files.stage = none ∧ after.files.backup = none)
      (recoverPendingKind configuration kind size) world :=
  transact_keeps sound (recoverAtomicKind_keeps sound)

theorem targetInfoWithRetry_keeps (always_now : always world) {attempts : Nat} :
    Keeps saveDevice always
      (fun found after => after = world ∧ ∀ size, found = some (false, size) →
        world.files.target.map List.length = some size)
      (targetInfoWithRetry attempts) world := by
  induction attempts with
  | zero => exact .throw always_now
  | succ attempts induction =>
    refine .bind_same (info_keeps always_now (by decide)) fun value honest => ?_
    cases value with
    | value is_dir size =>
      refine .pure always_now ⟨rfl, ?_⟩
      rintro _ ⟨⟩
      exact honest.2
    | missing => exact .pure always_now ⟨rfl, by rintro _ ⟨⟩⟩
    | failure fault =>
      dsimp only
      split
      · exact .throw always_now
      · exact .bind_same (sleep_keeps always_now) fun _ _ => induction

theorem readTargetRounds_keeps (always_now : always world)
    {data : Bytes} (target : world.files.target = some data) {rounds : Nat} {out : Bytes}
    (read : out = data.take out.length) :
    Keeps saveDevice always
      (fun result after => after = world ∧ ∀ bytes, result = .ok bytes → bytes = data)
      (readTargetRounds data.length rounds out) world := by
  have complete {out : Bytes} (read : out = data.take out.length) (full : data.length ≤ out.length) :
      Keeps saveDevice always
        (fun result after => after = world ∧ ∀ bytes, result = ReadResult.ok bytes → bytes = data)
        (pure (ReadResult.ok out)) world := by
    refine .pure always_now ⟨rfl, ?_⟩
    rintro _ ⟨⟩
    rw [read, List.take_of_length_le full]
  induction rounds generalizing out with
  | zero =>
    unfold readTargetRounds
    split
    · next full => exact complete read full
    · exact .pure always_now ⟨rfl, by rintro _ ⟨⟩⟩
  | succ rounds induction =>
    unfold readTargetRounds
    split
    · next full => exact complete read full
    refine .bind_same (readAt_keeps always_now .target out.length _) fun value honest => ?_
    split
    · next found =>
        split
        · exact .pure always_now ⟨rfl, by rintro _ ⟨⟩⟩
        obtain ⟨-, content, content_eq, found_eq⟩ := honest
        obtain rfl := Option.some.inj (content_eq.symm.trans target)
        have extended : out ++ found = content.take (out ++ found).length := by
          rw [List.length_append, List.take_add, ← read, ← found_eq]
        exact induction extended
    · exact .pure always_now ⟨rfl, by rintro _ ⟨⟩⟩
    · exact .pure always_now ⟨rfl, by rintro _ ⟨⟩⟩

/-- A read finishes an earlier write and returns the target. -/
theorem readTarget_keeps (sound : SaveSound ledger size world) :
    Keeps saveDevice (SaveSound ledger size)
      (fun result after => ∀ bytes, result = .ok bytes →
        after.files.target = some bytes ∧ after.files.stage = none ∧ after.files.backup = none)
      (readTarget configuration kind size) world := by
  refine .bind (recoverPendingKind_keeps sound) fun _ now sound_now reached => ?_
  obtain ⟨stage, backup⟩ := reached
  refine .bind_same (targetInfoWithRetry_keeps sound_now) fun found sized => ?_
  cases found with
  | none => exact .pure sound_now (by rintro _ ⟨⟩)
  | some answer =>
    obtain ⟨is_dir, found⟩ := answer
    dsimp only
    split
    · exact .pure sound_now (by rintro _ ⟨⟩)
    · next fits =>
        simp only [ne_eq, Bool.or_eq_true, decide_eq_true_eq, not_or, not_not,
          Bool.not_eq_true] at fits
        obtain ⟨rfl, rfl⟩ := fits
        obtain ⟨data, target, rfl⟩ := Option.map_eq_some_iff.mp (sized found rfl)
        refine (readTargetRounds_keeps sound_now target (by rfl)).mono ?_
        rintro result after _ ⟨rfl, whole⟩ bytes finished
        rw [whole bytes finished]
        exact ⟨target, stage, backup⟩

theorem readExactSave_ensures (sound : SaveSound ledger size world) {held : Bool} :
    Ensures saveDevice (SaveSound ledger size)
      (fun result after => ∀ bytes, result = .ok bytes →
        after.files.target = some bytes ∧ after.files.stage = none ∧ after.files.backup = none)
      (readExactSave configuration kind held size) world := by
  unfold readExactSave
  split
  · exact .pure sound (by rintro _ ⟨⟩)
  refine .seq (readTarget_keeps sound) fun reply after kept reached => ?_
  cases reply with
  | error fault => exact .pure kept (by rintro _ ⟨⟩)
  | ok result => exact .pure kept (reached result rfl)

end Transactions

end R4OS.Persistence
