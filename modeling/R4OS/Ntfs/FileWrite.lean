import R4OS.Ntfs.RecordAllocation

/-!
# Writing file contents

Filling the holes of sparse files, committing run lists, appending at the end of a file and
overwriting bytes inside it.
-/

namespace R4OS.Ntfs

open Crash Text

section

variable (v : Volume)

/-- Append a run, joined to the previous one when both are holes or adjacent. -/
def pushRun (out : List Run) (run : Run) : Option (List Run) :=
  if run.length_clusters = 0 then some out
  else
    let separate := if out.length < MAX_ATTR_RUNS then some (out ++ [run]) else none
    let join (last : Run) := do
      let length ← checkedAddU64 last.length_clusters run.length_clusters
      return out.dropLast ++ [{ last with length_clusters := length }]
    match out.getLast? with
    | none => separate
    | some last =>
      match last.lcn, run.lcn with
      | none, none => join last
      | some last_lcn, some lcn => do
          let last_end ← checkedAddU64 last_lcn last.length_clusters
          if last_end = lcn then join last else separate
      | _, _ => separate

/-- Bytes that are zeroed by one write. -/
def zero_chunk : Nat := 4096

def zeroRunClusters (run : Run) : VolumeProgram Bool :=
  match run.lcn with
  | none => return true
  | some lcn =>
    if runlistPhysicalRangeValid v [run] then
      match checkedMulU64 run.length_clusters v.cluster_bytes with
      | none => return false
      | some total => zeroLcnRange v zero_chunk lcn total 0 total
    else return false

def zeroMappedRuns (range_start range_end : Nat) : List Run → (run_start : Nat) →
    VolumeProgram Bool
  | [], _ => return true
  | run :: rest, run_start =>
    match (checkedMulU64 run.length_clusters v.cluster_bytes).bind (checkedAddU64 run_start) with
    | none => return false
    | some run_end =>
      if range_end ≤ run_start then return true
      else
        match run.lcn with
        | none => zeroMappedRuns range_start range_end rest run_end
        | some lcn =>
          if range_start < run_end then
            let pos := max run_start range_start
            let stop := min run_end range_end
            require (zeroLcnRange v zero_chunk lcn (stop - pos) (pos - run_start)
              (stop - run_start)) (return false) <|
              zeroMappedRuns range_start range_end rest run_end
          else zeroMappedRuns range_start range_end rest run_end

def zeroMappedRange (runs : List Run) (range_start range_end : Nat) : VolumeProgram Bool :=
  if range_end ≤ range_start then return true
  else if runlistPhysicalRangeValid v runs then zeroMappedRuns v range_start range_end runs 0
  else return false

def overlapsHoleFrom (range_start range_end : Nat) : List Run → (run_start : Nat) → Option Bool
  | [], _ => some false
  | run :: rest, run_start => do
      let run_bytes ← checkedMulU64 run.length_clusters v.cluster_bytes
      let run_end ← checkedAddU64 run_start run_bytes
      if range_end ≤ run_start then some false
      else if run.lcn = none ∧ range_start < run_end then some true
      else overlapsHoleFrom range_start range_end rest run_end

def rangeOverlapsHole (runs : List Run) (offset length : Nat) : Option Bool :=
  if length = 0 then some false
  else do
    let range_end ← checkedAddU64 offset length
    if runlistPhysicalRangeValid v runs then overlapsHoleFrom v offset range_end runs 0 else none

/-- The run list under construction and the runs that were allocated for it. -/
structure HoleFill where
  out : List Run
  fresh : List Run

/-- Outcome of a step of the construction. -/
inductive HoleFillResult
  | filled (fill : HoleFill)
  | failed (status : WriteStatus) (fresh : List Run)

/-- Append allocated runs, zeroing their clusters. -/
def pushFresh : List Run → HoleFill → VolumeProgram HoleFillResult
  | [], fill => return .filled fill
  | run :: rest, fill => do
      let fresh := fill.fresh ++ [run]
      if ← zeroRunClusters v run then
        match pushRun fill.out run with
        | none => return .failed .record_full fresh
        | some out => pushFresh rest ⟨out, fresh⟩
      else return .failed .io fresh

/-- Allocate clusters for a part of a hole. -/
def fillHole : (rounds need : Nat) → HoleFill → VolumeProgram HoleFillResult
  | 0, _, fill => return .filled fill
  | rounds + 1, need, fill =>
    if need = 0 then return .filled fill
    else if 32 < fill.fresh.length + 8 then return .failed .record_full fill.fresh
    else do
      match ← allocateClusters v need 8 with
      | .failed status => return .failed status fill.fresh
      | .produced new_runs =>
        match ← pushFresh v new_runs fill with
        | .failed status fresh => return .failed status fresh
        | .filled fill =>
          fillHole rounds (need - (new_runs.map (·.length_clusters)).sum) fill

/-- Rebuild the runs from cluster `vcn` on with the holes between two clusters filled. -/
def fillRuns (first_vcn last_vcn : Nat) : List Run → (vcn : Nat) → HoleFill →
    VolumeProgram HoleFillResult
  | [], _, fill => return .filled fill
  | run :: rest, vcn, fill =>
    match checkedAddU64 vcn run.length_clusters with
    | none => return .failed .io fill.fresh
    | some run_end =>
      if run.lcn ≠ none ∨ run_end ≤ first_vcn ∨ last_vcn < vcn then
        match pushRun fill.out run with
        | none => return .failed .record_full fill.fresh
        | some out => fillRuns first_vcn last_vcn rest run_end { fill with out := out }
      else
        let fill_from := max vcn first_vcn
        let fill_to := min (run_end - 1) last_vcn
        match pushRun fill.out { lcn := none, length_clusters := fill_from - vcn } with
        | none => return .failed .record_full fill.fresh
        | some out => do
            let need := fill_to - fill_from + 1
            match ← fillHole v need need { fill with out := out } with
            | .failed status fresh => return .failed status fresh
            | .filled fill =>
              match pushRun fill.out
                  { lcn := none, length_clusters := run_end - 1 - fill_to } with
              | none => return .failed .record_full fill.fresh
              | some out =>
                fillRuns first_vcn last_vcn rest run_end { fill with out := out }

/-- Result of filling holes: the run list to commit. -/
inductive FilledRuns
  | runs (runs : List Run)
  | failed (status : WriteStatus)

/-- Map every hole that overlaps a byte range.  A failure returns what was allocated. -/
def fillHolesInRuns (runs : List Run) (offset length : Nat) : VolumeProgram FilledRuns :=
  if length = 0 then return .runs runs
  else if runlistPhysicalRangeValid v runs = false then return .failed .io
  else
    match checkedAddU64 offset length with
    | none => return .failed .io
    | some range_end => do
        match ← fillRuns v (offset / v.cluster_bytes) ((range_end - 1) / v.cluster_bytes) runs 0
            ⟨[], []⟩ with
        | .failed status fresh =>
          if fresh = [] then return .failed status
          else
            require (freeClusters v fresh) (return FilledRuns.failed .cleanup_failed) <|
              return .failed status
        -- Without a hole in the range the runs stay as they are.
        | .filled fill => return .runs (if fill.fresh = [] then runs else fill.out)

def dataExtensionRecordStatus (base_number : Nat) :
    VolumeProgram (LookupStatus FileReference) := do
  match ← loadRecord base_number with
  | none => return .io
  | some base =>
    match base.attribute_lists with
    | [] => return .not_found
    | { entries := none, .. } :: _ => return .io
    | { entries := some [], .. } :: _ => return .not_found
    | { entries := some [entry], .. } :: _ =>
      let placed (record : FileRecord) : Bool :=
        match record.data with
        | some { instance_id, body := .non_resident fields, .. } =>
          instance_id = entry.instance_id && fields.lowest_vcn = 0
        | _ => false
      if entry.lowest_vcn ≠ 0 then return .io
      else if entry.mft_reference.record = base_number then
        if entry.mft_reference.sequence = base.sequence ∧ placed base then return .not_found
        else return .io
      else
        match ← loadRecord entry.mft_reference.record with
        | none => return .io
        | some extension =>
          if extension.sequence = entry.mft_reference.sequence ∧
              extension.base_record = some ⟨base_number, base.sequence⟩ ∧ placed extension
          then return .found entry.mft_reference
          else return .io
    | { entries := some (_ :: _ :: _), .. } :: _ => return .io

/-- Bytes of the attribute list of a file whose data moved to an extension record. -/
def spill_list_length : Nat := 0x18 + 3 * 0x20

/-- Let the base record of a file refer to the extension record that has its data. -/
def spillBase (base_number ext_number ext_seq : Nat) : VolumeProgram WriteStatus := do
  let rollback := rollbackUnpublishedRecord v ext_number true
  match ← loadRecord base_number with
  | none => rollback .io
  | some base =>
    if base.has_standard_information = false ∨ base.has_file_name = false then rollback .io
    else
      match base.removeData with
      | none => rollback .io
      | some removed =>
        match removed.insertAttributeList v {
            length := spill_list_length,
            entries := some [⟨0, ⟨ext_number, ext_seq⟩, 0⟩] } with
        | none => rollback .record_full
        | some updated =>
          require (storeRecord v base_number updated) (return .io) (return .ok)

/-- Move the data of a file to a fresh extension record. -/
def spillDataToExtension (base_number : Nat) (runs : List Run)
    (data_size init_size alloc_size : Nat) : VolumeProgram WriteStatus := do
  match ← loadRecord base_number with
  | none => return .io
  | some base =>
    match ← allocateRecord v with
    | .failed status => return status
    | .allocated ext_number ext_seq =>
      let empty : FileRecord := {
        sequence := ext_seq, link_count := 0, is_directory := false,
        base_record := some ⟨base_number, base.sequence⟩, next_attr_instance := 1,
        has_standard_information := false, has_file_name := false, other_bytes := 0x38 + 8,
        attribute_lists := [], data := some (nonResidentDataStub data_size 0 alloc_size) }
      match empty.updateNonResident v runs data_size init_size alloc_size with
      | none => rollbackUnpublishedRecord v ext_number false .record_full
      | some extension =>
        require (storeRecord v ext_number extension) (return .io) <|
          require VolumeCall.flush.perform
            (rollbackUnpublishedRecord v ext_number true .io) <|
            spillBase v base_number ext_number ext_seq

/-- Commit the run list and the sizes of a file where its data attribute is, or move the attribute
to an extension record when its record is full. -/
def commitDataRunlist (base_number : Nat) (runs : List Run)
    (data_size init_size alloc_size : Nat) : VolumeProgram WriteStatus := do
  match ← dataExtensionRecordStatus base_number with
  | .io => return .io
  | .not_found =>
    match ← loadRecord base_number with
    | none => return .io
    | some base =>
      match base.updateNonResident v runs data_size init_size alloc_size with
      | some updated =>
        require (storeRecord v base_number updated) (return .io) (return .ok)
      | none => spillDataToExtension v base_number runs data_size init_size alloc_size
  | .found reference =>
    match ← loadRecord reference.record with
    | none => return .io
    | some extension =>
      if extension.sequence ≠ reference.sequence then return .io
      else
        match extension.updateNonResident v runs data_size init_size alloc_size with
        | none => return .record_full
        | some updated =>
          require (storeRecord v reference.record updated) (return .io) (return .ok)

/-- A flush that a deferred append leaves out. -/
def durableFlush (durable : Bool) : VolumeProgram Bool :=
  if durable then VolumeCall.flush.perform else return true

/-- Write the base record again with the sizes that its name attribute repeats. -/
def updateFileNameDupOnBase (base_number : Nat) : VolumeProgram Bool := do
  match ← loadRecord base_number with
  | none => return false
  | some base => storeRecord v base_number base

/-- The end of an append: the repeated sizes of the index entry and the dirty flag. -/
def finishAppend (parent : Nat) (name : Bytes) (durable : Bool) : VolumeProgram WriteStatus :=
  require (VolumeCall.updateIndexEntrySizes parent name).perform (return .io) <|
    require (durableFlush durable) (return .io) <|
      require (if durable then setDirty v false else return true) (return .io) (return .ok)

/-- The end of an append to a non-resident file, behind its commit. -/
def finishCommitted (parent : Nat) (name : Bytes) (number : Nat) (durable : Bool) :
    VolumeProgram WriteStatus :=
  require (durableFlush durable) (return .io) <|
    require (updateFileNameDupOnBase v number) (return .io) <|
      require (durableFlush durable) (return .io) <|
        finishAppend v parent name durable

/-- Turn a resident stream into a non-resident one and append to it. -/
def convertResidentAndAppend (parent : Nat) (name : Bytes) (number : Nat) (value data : Bytes)
    (total : Nat) (durable : Bool) : VolumeProgram WriteStatus :=
  if v.cluster_bytes = 0 then abortWrite v .io
  else
    match checkedAddU64 total (v.cluster_bytes - 1) with
    | none => abortWrite v .invalid
    | some rounded_total => do
        let clusters := rounded_total / v.cluster_bytes
        match ← allocateClusters v clusters 24 with
        | .failed status => abortWrite v status
        | .produced runs =>
          let failed := abortWriteFreeing v runs
          match checkedMulU64 clusters v.cluster_bytes with
          | none => failed .io
          | some alloc_bytes =>
            require (durableFlush durable) (failed .io) <|
            require (if value = [] then return true else writeRunBytes v runs 0 value)
              (failed .io) <|
            require (writeRunBytes v runs value.length data) (failed .io) <|
            require (durableFlush durable) (failed .io) do
              match ← loadRecord number with
              | none => failed .io
              | some record =>
                match record.removeData.bind fun removed =>
                    removed.insertData v (nonResidentDataStub total total alloc_bytes) with
                | none => failed .io
                | some inserted =>
                  match inserted.updateNonResident v runs total total alloc_bytes with
                  | none => failed .record_full
                  | some updated =>
                    require (storeRecord v number updated) (return .io) <|
                      require (durableFlush durable) (return .io) <|
                        finishAppend v parent name durable

def appendResident (parent : Nat) (name : Bytes) (number : Nat) (value data : Bytes)
    (durable : Bool) : VolumeProgram WriteStatus := do
  let total := value.length + data.length
  let convert := convertResidentAndAppend v parent name number value data total durable
  if total ≤ RESIDENT_DATA_MAX then
    match ← loadRecord number with
    | none => return .io
    | some record =>
      match record.updateResident v (value ++ data) with
      | some updated =>
        require (storeRecord v number updated) (return .io) <|
          require (durableFlush durable) (return .io) <|
            finishAppend v parent name durable
      | none => convert
  else convert

/-- Append inside the clusters that the file has. -/
def appendSlack (parent : Nat) (name : Bytes) (number : Nat) (attr : AttrScratch) (data : Bytes)
    (total : Nat) (durable : Bool) : VolumeProgram WriteStatus :=
  require (writeRunBytes v attr.runs attr.data_size data) (return .io) <|
    require (durableFlush durable) (return .io) do
      match ← commitDataRunlist v number attr.runs total total attr.alloc_size with
      | .ok => finishCommitted v parent name number durable
      | status => abortWriteAfterCommitFailure v status

/-- Append behind the clusters that the file has. -/
def appendExtending (parent : Nat) (name : Bytes) (number : Nat) (attr : AttrScratch)
    (data : Bytes) (total : Nat) (durable : Bool) : VolumeProgram WriteStatus :=
  if v.cluster_bytes = 0 then abortWrite v .io
  else
    match checkedAddU64 total (v.cluster_bytes - 1) with
    | none => abortWrite v .invalid
    | some rounded_total =>
      let required_clusters := rounded_total / v.cluster_bytes
      let allocated_clusters := attr.alloc_size / v.cluster_bytes
      if required_clusters ≤ allocated_clusters then abortWrite v .io
      else if MAX_ATTR_RUNS < attr.runs.length + 8 then abortWrite v .record_full
      else do
        let need_clusters := required_clusters - allocated_clusters
        match ← allocateClusters v need_clusters 8 with
        | .failed status => abortWrite v status
        | .produced new_runs =>
          let failed := abortWriteFreeing v new_runs
          require (durableFlush durable) (failed .io)
            (match appendRuns MAX_ATTR_RUNS attr.runs new_runs,
                (checkedMulU64 need_clusters v.cluster_bytes).bind
                  (checkedAddU64 attr.alloc_size) with
            | .error status, _ => failed status
            | .ok _, none => failed .io
            | .ok runs, some new_alloc =>
              if runlistPhysicalRangeValid v runs then
                require (writeRunBytes v runs attr.data_size data) (failed .io) <|
                  require (durableFlush durable) (failed .io) do
                    match ← commitDataRunlist v number runs total total new_alloc with
                    | .ok => finishCommitted v parent name number durable
                    -- Only these failures come before the run list is published.
                    | .record_full => failed .record_full
                    | .no_space => failed .no_space
                    | status => return status
              else failed .io)

/-- Append to a non-resident stream.  A sparse stream first gets zeros up to its end and clusters
in the range that is written. -/
def appendNonResident (parent : Nat) (name : Bytes) (number : Nat) (attr : AttrScratch)
    (data : Bytes) (total : Nat) (durable : Bool) : VolumeProgram WriteStatus :=
  let write (attr : AttrScratch) : VolumeProgram WriteStatus :=
    if total ≤ attr.alloc_size then appendSlack v parent name number attr data total durable
    else appendExtending v parent name number attr data total durable
  if attr.flags.sparse then
    require (zeroMappedRange v attr.runs attr.initialized_size attr.data_size) (return .io) <|
      let fill_end := min total attr.alloc_size
      if attr.data_size < fill_end then do
        match ← fillHolesInRuns v attr.runs attr.data_size (fill_end - attr.data_size) with
        | .failed status => abortWrite v status
        | .runs runs => write { attr with runs := runs }
      else write attr
  else write attr

/-- Whether a directory entry still names the live object it was made for. -/
def lookupResultIsLive (found : DirectoryEntry) : VolumeProgram Bool := do
  match ← loadRecord found.record with
  | none => return false
  | some record =>
    return record.sequence = found.sequence && record.is_directory == found.is_directory

/-- Refuse objects with more than one name. -/
def requireSingleLinkStatus (number expected_sequence : Nat) : VolumeProgram WriteStatus := do
  match ← loadRecord number with
  | none => return .io
  | some record =>
    if record.sequence ≠ expected_sequence then return .io
    else return if record.link_count = 1 then .ok else .unsupported

/-- Append to the collected stream of an object. -/
def appendCollected (parent : Nat) (name : Bytes) (found : DirectoryEntry) (attr : AttrScratch)
    (data : Bytes) (durable : Bool) : VolumeProgram WriteStatus := do
  match ← requireSingleLinkStatus found.record found.sequence with
  | .ok =>
    match checkedAddU64 attr.data_size data.length with
    | none => return .invalid
    | some total =>
      require (setDirty v true) (return .io)
        (match attr.resident with
        | some value => appendResident v parent name found.record value data durable
        | none => appendNonResident v parent name found.record attr data total durable)
  | status => return status

def appendFileAtOffsetImpl (parent : Nat) (name : Bytes) (expected_offset : Nat) (data : Bytes)
    (durable : Bool) : VolumeProgram WriteStatus := do
  if name = [] ∨ NAME_MAX < name.length then return .invalid
  else
    match ← (VolumeCall.lookup parent name).perform with
    | none => return .io
    | some none => return .not_found
    | some (some found) =>
      if found.is_directory then return .directory
      else require (lookupResultIsLive found) (return .io) do
        match ← collectAttributeStatus v found.record with
        | .not_found | .io => return .io
        | .found attr =>
          if attr.data_size ≠ expected_offset then return .offset_mismatch
          else if attr.flags.compressed || attr.flags.encrypted then return .unsupported
          else if data = [] then return .ok
          else appendCollected v parent name found attr data durable

/-- Append with a flush behind every phase. -/
def appendFileAtOffset (parent : Nat) (name : Bytes) (expected_offset : Nat) (data : Bytes) :
    VolumeProgram WriteStatus :=
  appendFileAtOffsetImpl v parent name expected_offset data true

/-- Append without flushes; the dirty flag stays set. -/
def appendFileAtOffsetDeferred (parent : Nat) (name : Bytes) (expected_offset : Nat)
    (data : Bytes) : VolumeProgram WriteStatus :=
  appendFileAtOffsetImpl v parent name expected_offset data false

/-- Outcome of an overwrite: the status, the bytes confirmed, and whether more may have changed. -/
structure WriteProgress where
  status : WriteStatus
  completed : Nat
  uncertain : Bool

/-- Report a failure that may have changed bytes. -/
def uncertainWrite (completed : Nat) : VolumeProgram WriteProgress := do
  return ⟨← markWriteUncertain v, completed, true⟩

/-- Clear the dirty flag that an overwrite has set. -/
def restoreClean (previously_dirty : Bool) : VolumeProgram Bool :=
  if previously_dirty then return true else setDirty v false

/-- Overwrite bytes of a resident stream. -/
def writeResident (number offset : Nat) (value data : Bytes) : VolumeProgram WriteProgress := do
  match ← VolumeCall.isDirty.perform with
  | none => return ⟨.io, 0, false⟩
  | some previously_dirty =>
    require (ensureDirtyDurable v) (uncertainWrite v 0) do
      match ← loadRecord number with
      | none => return ⟨.io, 0, false⟩
      | some record =>
        if RESIDENT_DATA_MAX < value.length then return ⟨.io, 0, false⟩
        else
          match record.updateResident v
              (value.take offset ++ data ++ value.drop (offset + data.length)) with
          | none => return ⟨.io, 0, false⟩
          | some updated =>
            let store (record : FileRecord) : VolumeProgram Bool :=
              require (storeRecord v number record) (return false) VolumeCall.flush.perform
            if ← store updated then
              require (restoreClean v previously_dirty) (uncertainWrite v data.length)
                (return ⟨.ok, data.length, false⟩)
            else if ← store record then
              require (restoreClean v previously_dirty) (uncertainWrite v 0)
                (return ⟨.io, 0, false⟩)
            else
              let _ ← markWriteUncertain v
              return ⟨.cleanup_failed, 0, true⟩

/-- Overwrite bytes of a sparse stream where clusters or zeros are missing. -/
def writeSparse (number offset : Nat) (attr : AttrScratch) (data : Bytes) :
    VolumeProgram WriteProgress :=
  let uncertain := uncertainWrite v 0
  require (ensureDirtyDurable v) uncertain do
    match ← fillHolesInRuns v attr.runs offset data.length with
    | .failed status => return ⟨← abortWrite v status, 0, false⟩
    | .runs runs =>
      require VolumeCall.flush.perform uncertain <|
      require (if attr.initialized_size < offset then
        zeroMappedRange v runs attr.initialized_size offset else return true) uncertain <|
      require (writeRunBytes v runs offset data) uncertain <|
      require VolumeCall.flush.perform uncertain do
        let new_init := max (offset + data.length) attr.initialized_size
        match ← commitDataRunlist v number runs attr.data_size new_init attr.alloc_size with
        | .ok =>
          require VolumeCall.flush.perform uncertain <|
            require (setDirty v false) uncertain (return ⟨.ok, data.length, false⟩)
        | status =>
          let _ ← markWriteUncertain v
          return ⟨status, 0, true⟩

/-- Overwrite bytes of a collected stream. -/
def writeCollected (number offset : Nat) (attr : AttrScratch) (data : Bytes) (write_end : Nat) :
    VolumeProgram WriteProgress :=
  match attr.resident with
  | some value => writeResident v number offset value data
  | none =>
    if attr.initialized_size < write_end ∧ attr.flags.sparse = false then
      return ⟨.offset_mismatch, 0, false⟩
    else
      match rangeOverlapsHole v attr.runs offset data.length with
      | none => return ⟨.io, 0, false⟩
      | some overlaps_hole =>
        if attr.flags.sparse && (overlaps_hole || decide (attr.initialized_size < write_end))
        then writeSparse v number offset attr data
        else do
          match ← writeRunBytesProgress v attr.runs offset data with
          | .ok () => return ⟨.ok, data.length, false⟩
          | .error completed => uncertainWrite v completed

/-- Overwrite bytes inside a file. -/
def writeFileAtProgress (number offset : Nat) (data : Bytes) : VolumeProgram WriteProgress := do
  if v.mft_mirror_bootstrap then return ⟨.unsupported, 0, false⟩
  else if (← VolumeCall.readScratch.perform).repair_required then
    return ⟨.cleanup_failed, 0, true⟩
  else if data = [] then return ⟨.ok, 0, false⟩
  else
    match checkedAddU64 offset data.length with
    | none => return ⟨.offset_mismatch, 0, false⟩
    | some write_end =>
      match ← collectAttributeStatus v number with
      | .not_found | .io => return ⟨.io, 0, false⟩
      | .found attr =>
        if attr.flags.compressed || attr.flags.encrypted then
          return ⟨.unsupported, 0, false⟩
        else if attr.data_size < write_end then return ⟨.offset_mismatch, 0, false⟩
        else writeCollected v number offset attr data write_end

end

end R4OS.Ntfs
