import R4OS.Persistence.SaveStoreCrash

/-!
# Histories of the save store

Along any history of writes and reads of one save, each finished, failed or cut short, a complete
snapshot stands in one of the three files, the backup leaves only beside a complete target, and a
read returns the last acknowledged snapshot or a later one.
-/

namespace R4OS.Persistence

open Crash Text

section Histories

variable {configuration : Configuration} {kind : FileKind} {size : Nat} {initial : Option Bytes}
  {ledger : Ledger} {world : SaveWorld}

/-- What a history of calls of one kind with a fixed record size did to the files.  A crash loses
the open stream, and a write is acknowledged when it returns success. -/
inductive SaveHistory (configuration : Configuration) (kind : FileKind) (size : Nat)
    (initial : Option Bytes) : Ledger → SaveWorld → Prop
  | start (stream : Option Bytes) :
      SaveHistory configuration kind size initial ⟨initial, [], 0⟩
        ⟨⟨initial, none, none, []⟩, stream⟩
  | write {ledger : Ledger} {before after : SaveWorld} {held : Bool} {bytes : Bytes}
      {outcome : Option (Except BackendError Unit)}
      (earlier : SaveHistory configuration kind size initial ledger before)
      (whole : bytes.length = size)
      (execution : Execution saveDevice (writeAtomicSave configuration kind held bytes).run before
        outcome after)
      (stream : Option Bytes) :
      SaveHistory configuration kind size initial
        (if outcome = some (.ok ()) then (ledger.ask bytes).acknowledge else ledger.ask bytes)
        ⟨after.files, stream⟩
  | read {ledger : Ledger} {before after : SaveWorld} {held : Bool} {outcome : Option ReadResult}
      (earlier : SaveHistory configuration kind size initial ledger before)
      (execution : Execution saveDevice (readExactSave configuration kind held size) before outcome
        after)
      (stream : Option Bytes) :
      SaveHistory configuration kind size initial ledger ⟨after.files, stream⟩

/-- A snapshot that a write was asked for, or the first target. -/
def Ledger.Known (ledger : Ledger) (bytes : Bytes) : Prop :=
  ledger.initial = some bytes ∨ bytes ∈ ledger.asked

/-- One of the three files holds a snapshot. -/
def SaveFiles.Holds (files : SaveFiles) (bytes : Bytes) : Prop :=
  files.target = some bytes ∨ files.stage = some bytes ∨ files.backup = some bytes

theorem Ledger.known_of_version {index : Nat} {bytes : Bytes}
    (found : ledger.version index = some bytes) : ledger.Known bytes := by
  cases index with
  | zero => exact .inl found
  | succ index => exact .inr (List.mem_of_getElem? found)

theorem Ledger.version_defined {index : Nat} (known : index ≤ ledger.asked.length)
    (some_snapshot : ledger.initial ≠ none ∨ 0 < index) :
    ∃ bytes, ledger.version index = some bytes := by
  cases index with
  | zero => exact Option.ne_none_iff_exists'.mp (some_snapshot.resolve_right (by omega))
  | succ index => exact ⟨_, List.getElem?_eq_getElem known⟩

theorem Placed.holds {files : SaveFiles} (placed : Placed ledger files)
    (some_snapshot : ledger.initial ≠ none ∨ 0 < ledger.acknowledged) :
    ∃ bytes, files.Holds bytes ∧ ledger.Known bytes := by
  cases placed with
  | clean held recent known target stage backup =>
    obtain ⟨bytes, found⟩ := Ledger.version_defined known (some_snapshot.imp_right (by omega))
    exact ⟨bytes, .inl (target.trans found), Ledger.known_of_version found⟩
  | staged held next new recent order new_eq target stage backup =>
    exact ⟨new, .inr (.inl stage), Ledger.known_of_version new_eq⟩
  | moved held next old new recent order old_eq new_eq target stage backup =>
    exact ⟨new, .inr (.inl stage), Ledger.known_of_version new_eq⟩
  | published held next old new recent order old_eq new_eq target stage backup =>
    exact ⟨new, .inl target, Ledger.known_of_version new_eq⟩

theorem SaveHistory.initial_eq (history : SaveHistory configuration kind size initial ledger world) :
    ledger.initial = initial := by
  induction history with
  | start stream => rfl
  | write earlier whole execution stream induction =>
    split <;> exact induction
  | read earlier execution stream induction => exact induction

theorem SaveHistory.sound (history : SaveHistory configuration kind size initial ledger world) :
    SaveSound ledger size world := by
  induction history with
  | start stream =>
    exact ⟨.clean 0 le_rfl (Nat.zero_le _) rfl rfl rfl, fun _ member => nomatch member⟩
  | @write ledger before after held bytes outcome earlier whole execution stream induction =>
    subst whole
    obtain ⟨kept, finished⟩ := (writeAtomicSave_keeps induction).sound execution
    split
    · next acknowledged =>
        obtain ⟨target, stage, backup⟩ := finished () acknowledged
        exact (kept.acknowledge target stage backup).congr rfl
    · exact kept.congr rfl
  | read earlier execution stream induction =>
    exact ((readExactSave_ensures induction).sound execution).1.congr rfl

/-- Save files survive crashes: a complete snapshot stands in one of the files, the backup was
removed only beside a target of the record size, and a successful read returns the last
acknowledged snapshot or a later one. -/
theorem save_history_safe (history : SaveHistory configuration kind size initial ledger world) :
    ((initial ≠ none ∨ 0 < ledger.acknowledged) →
        ∃ bytes, world.files.Holds bytes ∧ ledger.Known bytes) ∧
      (∀ target ∈ world.files.removals, ∃ data : Bytes, target = some data ∧ data.length = size) ∧
      ∀ (held : Bool) (bytes : Bytes) (after : SaveWorld),
        Execution saveDevice (readExactSave configuration kind held size) world (some (.ok bytes))
          after →
        ∃ index, ledger.acknowledged ≤ index ∧ index ≤ ledger.asked.length ∧
          ledger.version index = some bytes := by
  have sound := history.sound
  refine ⟨fun some_snapshot => ?_, sound.removals, fun held bytes after execution => ?_⟩
  · rw [← history.initial_eq] at some_snapshot
    exact sound.placed.holds some_snapshot
  · obtain ⟨kept, finished⟩ := (readExactSave_ensures sound).sound execution
    obtain ⟨target, stage, backup⟩ := finished _ rfl bytes rfl
    obtain ⟨index, recent, known, target_eq⟩ := kept.clean stage backup
    exact ⟨index, recent, known, target_eq.symm.trans target⟩

end Histories

/-- Files that answer every call and never fail. -/
def healthyFiles : (operation : FileCall) → SaveWorld →
    Reply BackendError FileCall.Value operation × SaveWorld
  | .info name, world =>
    (.ok (match world.files.content name with
      | some bytes => .value false bytes.length
      | none => .missing), world)
  | .delete name, world => (.ok .ok, ⟨world.files.remove name, world.stream⟩)
  | .readAt name offset length, world =>
    (.ok (match world.files.content name with
      | some bytes => .bytes ((bytes.drop offset).take length)
      | none => .failure .not_found), world)
  | .replaceAtomic, world =>
    (.ok (if world.files.advance.advance.stage.isNone then .ok else .failure .io),
      ⟨world.files.advance.advance, world.stream⟩)
  | .streamBegin, world => (.ok none, ⟨world.files, some []⟩)
  | .streamWrite bytes, world => (.ok .ok, ⟨world.files, world.stream.map (· ++ bytes)⟩)
  | .streamFinish, world =>
    match world.stream with
    | some bytes => (.ok .ok, ⟨world.files.publish bytes, none⟩)
    | none => (.ok (.failure .not_found), world)
  | .streamAbort, world => (.ok (), ⟨world.files, none⟩)
  | .leaseCreate, world | .leaseAbort, world => (.ok none, world)
  | .leaseWrite _, world | .leaseFinish, world => (.ok .ok, world)
  | .sleep, world => (.ok (), world)

theorem healthyFiles_device (operation : FileCall) (before : SaveWorld) :
    saveDevice operation before (healthyFiles operation before).1
      (healthyFiles operation before).2 := by
  obtain ⟨files, stream⟩ := before
  cases operation with
  | info name =>
    refine ⟨rfl, _, rfl, fun _ => ?_⟩
    dsimp only
    split
    · next found => exact ⟨rfl, by rw [found]; rfl⟩
    · next absent => exact absent
  | delete name => exact ⟨.ok, rfl, .inl rfl⟩
  | readAt name offset length =>
    refine ⟨rfl, _, rfl, ?_⟩
    dsimp only
    split
    · next bytes found =>
        refine ⟨List.length_take_le length _, bytes, found, ?_⟩
        rw [List.length_take, List.take_eq_take_min]
    · trivial
  | replaceAtomic =>
    refine ⟨_, rfl, rfl, ?_⟩
    dsimp [healthyFiles]
    split
    · next gone => exact .inl ⟨rfl, Option.isNone_iff_eq_none.mp gone⟩
    · exact .inr ⟨by rintro ⟨⟩, .inr (.inr rfl)⟩
  | streamBegin => exact ⟨none, rfl, rfl, fun _ => rfl⟩
  | streamWrite bytes => exact ⟨.ok, rfl, rfl, fun _ => rfl⟩
  | streamFinish =>
    cases stream with
    | some bytes => exact ⟨.ok, rfl, .inl ⟨bytes, rfl, rfl⟩⟩
    | none => exact ⟨.failure .not_found, rfl, .inr ⟨by rintro ⟨⟩, rfl⟩⟩
  | streamAbort => exact ⟨rfl, .inl rfl⟩
  | leaseCreate | leaseAbort => exact ⟨rfl, none, rfl⟩
  | leaseWrite bytes | leaseFinish => exact ⟨rfl, .ok, rfl⟩
  | sleep => exact ⟨rfl, rfl⟩

/-- A store of plain save memory. -/
def plainConfiguration : Configuration := ⟨fun _ => 0, fun _ _ => false⟩

/-- The files after one acknowledged write over a first target. -/
def sampleSave : SaveWorld := ⟨⟨some [2], none, none, [some [2]]⟩, none⟩

/-- The ledger of that write. -/
def sampleLedger : Ledger := ((Ledger.mk (some [1]) [] 0).ask [2]).acknowledge

theorem save_history_safe_sample :
    (∃ bytes, sampleSave.files.Holds bytes ∧ sampleLedger.Known bytes) ∧
      (∀ target ∈ sampleSave.files.removals, ∃ data : Bytes, target = some data ∧ data.length = 1) ∧
      ∃ index, 1 ≤ index ∧ index ≤ 1 ∧ sampleLedger.version index = some [2] := by
  have written : Execution saveDevice (writeAtomicSave plainConfiguration .sram true [2]).run
      ⟨⟨some [1], none, none, []⟩, none⟩ (some (.ok ())) sampleSave :=
    Program.run_execution healthyFiles_device _ _
  have read : Execution saveDevice (readExactSave plainConfiguration .sram true 1) sampleSave
      (some (.ok [2])) sampleSave :=
    Program.run_execution healthyFiles_device _ _
  obtain ⟨holds, removals, returned⟩ :=
    save_history_safe (SaveHistory.write (.start none) rfl written none)
  exact ⟨holds (.inl (by rintro ⟨⟩)), removals, returned true [2] sampleSave read⟩

end R4OS.Persistence
