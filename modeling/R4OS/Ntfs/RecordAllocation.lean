import R4OS.Ntfs.Attributes

/-!
# Dirty flag, clean-up and record allocation

The bracket that every mutation opens with the dirty flag, the ways out of a mutation that failed,
and the allocation of file records with the growth of the master file table.
-/

namespace R4OS.Ntfs

open Crash Text

section

variable (v : Volume)

/-- Set or clear the dirty flag durably. -/
def setDirty (dirty : Bool) : VolumeProgram Bool := do
  let scratch ← VolumeCall.readScratch.perform
  if scratch.repair_required || v.mft_mirror_bootstrap then return false
  else
    match ← VolumeCall.isDirty.perform with
    | none => return false
    | some was_dirty =>
      if was_dirty = dirty then return true
      else require (VolumeCall.storeDirty dirty).perform (return false) VolumeCall.flush.perform

/-- Make a set dirty flag durable, also when it was set before. -/
def ensureDirtyDurable : VolumeProgram Bool := do
  let scratch ← VolumeCall.readScratch.perform
  if scratch.repair_required || v.mft_mirror_bootstrap then return false
  else
    match ← VolumeCall.isDirty.perform with
    | none => return false
    | some true => VolumeCall.flush.perform
    | some false => setDirty v true

/-- Keep the volume from being certified clean on this mount. -/
def markWriteUncertain : VolumeProgram WriteStatus := do
  let marked ← ensureDirtyDurable v
  let scratch ← VolumeCall.readScratch.perform
  (VolumeCall.setScratch { scratch with repair_required := true }).perform
  return if marked then .io else .cleanup_failed

/-- Leave a mutation that changed nothing lasting. -/
def abortWrite (status : WriteStatus) : VolumeProgram WriteStatus :=
  if status = .cleanup_failed then return status
  else
    let uncertain : VolumeProgram WriteStatus := do
      let _ ← markWriteUncertain v
      return .cleanup_failed
    require VolumeCall.flush.perform uncertain <|
      require (setDirty v false) uncertain (return status)

/-- Leave a mutation whose commit failed. -/
def abortWriteAfterCommitFailure (status : WriteStatus) : VolumeProgram WriteStatus :=
  if status = .io ∨ status = .cleanup_failed then return status else abortWrite v status

/-- Leave a mutation and return the clusters it had allocated. -/
def abortWriteFreeing (runs : List Run) (status : WriteStatus) : VolumeProgram WriteStatus :=
  if status = .cleanup_failed then return status
  else if runs = [] then abortWrite v status
  else require (freeClusters v runs) (return .cleanup_failed) (abortWrite v status)

/-- Move the search hint for records. -/
def setRecordSearchStart (next : Nat → Nat) : VolumeProgram Unit := do
  let scratch ← VolumeCall.readScratch.perform
  (VolumeCall.setScratch { scratch with
    record_search_start := next scratch.record_search_start }).perform

/-- Write one bit of the record bitmap. -/
def patchRecordBit (number : Nat) (set : Bool) : VolumeProgram Bool :=
  if v.mft_mirror_bootstrap then return false else (VolumeCall.patchRecordBit number set).perform

/-- Clear the bit of a record. -/
def releaseRecord (number : Nat) : VolumeProgram Bool :=
  require VolumeCall.collectRecordBitmap.perform (return false) <|
    require (patchRecordBit v number false) (return false) <| do
      setRecordSearchStart (min number)
      return true

/-- Clear the in-use flag of a record in place. -/
def markRecordFree (number : Nat) : VolumeProgram Bool := do
  match ← (VolumeCall.loadSlot number).perform with
  | none | some .blank => return false
  | some (.free sequence) => storeSlot v number (.free sequence)
  | some (.live record) => storeSlot v number (.free record.sequence)

/-- Take back a record that nothing refers to yet. -/
def rollbackUnpublishedRecord (number : Nat) (record_stored : Bool) (status : WriteStatus) :
    VolumeProgram WriteStatus :=
  require (if record_stored then markRecordFree v number else return true)
    (return .cleanup_failed) <|
    require (releaseRecord v number) (return .cleanup_failed) (return status)

/-- Append an extent to a run list, joined to the last extent when they are adjacent. -/
def appendRun (capacity : Nat) (runs : List Run) (run : Run) : Except WriteStatus (List Run) :=
  let separate := if runs.length < capacity then .ok (runs ++ [run]) else .error .record_full
  match runs.getLast?, run.lcn with
  | some last, some lcn =>
    match last.lcn with
    | none => separate
    | some last_lcn =>
      match checkedAddU64 last_lcn last.length_clusters with
      | none => .error .io
      | some last_end =>
        if last_end = lcn then
          match checkedAddU64 last.length_clusters run.length_clusters with
          | none => .error .io
          | some length => .ok (runs.dropLast ++ [{ last with length_clusters := length }])
        else separate
  | _, _ => separate

def appendRuns (capacity : Nat) (runs new_runs : List Run) : Except WriteStatus (List Run) :=
  new_runs.foldlM (appendRun capacity) runs

/-- Take back the growth of the table.  Its clusters are released only when the record of the table
is known not to refer to them. -/
def rollbackMftGrowth (runs : List Run) (published : Option FileRecord) (status : WriteStatus) :
    VolumeProgram WriteStatus :=
  let uncertain : VolumeProgram WriteStatus := do
    let _ ← markWriteUncertain v
    return .cleanup_failed
  let restored : VolumeProgram Bool := match published with
    | none => return true
    | some record =>
      require (storeRecord v MFT_RECORD_MFT record) (return false) VolumeCall.flush.perform
  require restored uncertain <|
    require (freeClusters v runs) uncertain <|
      require VolumeCall.flush.perform uncertain (return status)

/-- Write zeros to a byte range of an extent. -/
def zeroLcnRange (chunk lcn : Nat) : (rounds pos stop : Nat) → VolumeProgram Bool
  | 0, _, _ => return true
  | rounds + 1, pos, stop =>
    if pos < stop then
      let take := min (stop - pos) chunk
      require (writeLcnBytes v lcn pos (List.replicate take 0)) (return false) <|
        zeroLcnRange chunk lcn rounds (pos + take) stop
    else return true

/-- Write zeros to the clusters of the given runs, sector by sector. -/
def zeroNewRecords : List Run → VolumeProgram Bool
  | [] => return true
  | run :: rest =>
    match run.lcn, checkedMulU64 run.length_clusters v.cluster_bytes with
    | some lcn, some run_bytes =>
      require (zeroLcnRange v SECTOR_SIZE lcn run_bytes 0 run_bytes) (return false) <|
        zeroNewRecords rest
    | _, _ => return false

/-- Records that one growth of the table adds. -/
def grow_records : Nat := 64

/-- Publish zeroed clusters as new records of the table. -/
def publishMftGrowth (data_attr : AttrScratch) (new_runs : List Run) :
    VolumeProgram WriteStatus := do
  let failed := rollbackMftGrowth v new_runs none
  match appendRuns MAX_ATTR_RUNS data_attr.runs new_runs,
      checkedAddU64 data_attr.data_size (grow_records * v.record_bytes) with
  | .ok runs, some new_bytes =>
    if v.mft_runs_capacity < runs.length ∨ runlistPhysicalRangeValid v runs = false then
      failed .io
    else
      match ← loadRecord MFT_RECORD_MFT with
      | none => failed .io
      | some record =>
        match record.updateNonResident v runs new_bytes new_bytes new_bytes with
        | none => failed .record_full
        | some updated =>
          if updated.has_file_name = false then failed .io
          else
            let unpublish := rollbackMftGrowth v new_runs (some record) .io
            require (storeRecord v MFT_RECORD_MFT updated) unpublish <|
              require VolumeCall.flush.perform unpublish <| do
                (VolumeCall.addressRecords (data_attr.data_size / v.record_bytes)
                  grow_records).perform
                return .ok
  | _, _ => failed .io

/-- Extend the master file table. -/
def growMft : VolumeProgram WriteStatus := do
  match ← collectAttributeStatus v MFT_RECORD_MFT with
  | .not_found | .io => return .io
  | .found data_attr =>
    if data_attr.resident.isSome then return .io
    else require VolumeCall.collectRecordBitmap.perform (return .io) do
      match (checkedAddU64 (data_attr.data_size / v.record_bytes) grow_records).bind
          (checkedAddU64 · 7), checkedMulU64 grow_records v.record_bytes with
      | some rounded_records, some add_bytes =>
        if v.record_bitmap_bytes < rounded_records / 8 then return .no_space
        else if v.cluster_bytes = 0 ∨ add_bytes % v.cluster_bytes ≠ 0 ∨
            add_bytes / v.cluster_bytes = 0 then return .io
        else if MAX_ATTR_RUNS < data_attr.runs.length + 8 then return .record_full
        else
          match ← allocateClusters v (add_bytes / v.cluster_bytes) 8 with
          | .failed status =>
            if status = .cleanup_failed then
              let _ ← markWriteUncertain v
              return status
            else return status
          | .produced new_runs =>
            let failed := rollbackMftGrowth v new_runs none .io
            require VolumeCall.flush.perform failed <|
              require (zeroNewRecords v new_runs) failed <|
                publishMftGrowth v data_attr new_runs
      | _, _ => return .io

/-- Result of the allocation of a record. -/
inductive RecordAllocation
  | allocated (number sequence : Nat)
  | failed (status : WriteStatus)

/-- Scan the record bitmap for a free record, once around.  The answer is the number of records
when there is none. -/
def searchRecord (record_count start : Nat) :
    (rounds number last : Nat) → (wrapped : Bool) → VolumeProgram (Option Nat)
  | 0, _, _, _ => return some record_count
  | rounds + 1, number, last, wrapped =>
    if last ≤ number ∧ wrapped then return some record_count
    else do
      let wraps : Bool := last ≤ number
      let number := if wraps then MFT_FIRST_NORMAL else number
      let last := if wraps then start else last
      match ← (VolumeCall.recordBit number).perform with
      | none => return none
      | some false => return some number
      | some true => searchRecord record_count start rounds (number + 1) last (wrapped || wraps)

/-- The sequence number that a record gets when its place is used again. -/
def RecordSlot.nextSequence : RecordSlot → Nat
  | .blank => 1
  | .free sequence => if sequence = 0xFFFF then 1 else sequence + 1
  | .live record => if record.sequence = 0xFFFF then 1 else record.sequence + 1

/-- Mark a record that was found free. -/
def markRecord (number : Nat) : VolumeProgram RecordAllocation := do
  match ← (VolumeCall.loadSlot number).perform with
  | none => return .failed .io
  | some slot =>
    let failed : VolumeProgram RecordAllocation := do
      if ← require (releaseRecord v number) (return false) VolumeCall.flush.perform then
        return .failed .io
      else
        let _ ← markWriteUncertain v
        return .failed .cleanup_failed
    require (patchRecordBit v number true) failed do
      setRecordSearchStart fun _ => number + 1
      return .allocated number slot.nextSequence

/-- Allocate a free record, growing the table when there is none. -/
def allocateRecord : VolumeProgram RecordAllocation :=
  if v.record_bytes = 0 then return .failed .io
  else require VolumeCall.collectRecordBitmap.perform (return .failed .io) do
    match ← collectAttributeStatus v MFT_RECORD_MFT with
    | .not_found | .io => return .failed .io
    | .found data_attr =>
      let record_count := data_attr.data_size / v.record_bytes
      let hint := (← VolumeCall.readScratch.perform).record_search_start
      let start := if MFT_FIRST_NORMAL ≤ hint ∧ hint < record_count then hint
        else MFT_FIRST_NORMAL
      match ← searchRecord record_count start (record_count + 1) start record_count
          (start = MFT_FIRST_NORMAL) with
      | none => return .failed .io
      | some number =>
        if number < record_count then markRecord v number
        else
          match ← growMft v with
          | .ok =>
            require VolumeCall.collectRecordBitmap.perform (return .failed .io) do
              match ← (VolumeCall.recordBit record_count).perform with
              | none => return .failed .io
              | some _ => markRecord v record_count
          | status => return .failed status

end

end R4OS.Ntfs
