import R4OS.Ntfs.Volume

/-!
# Reading and writing clusters

Byte ranges inside an extent and inside the address space of a run list, and the allocation of
clusters in the bitmap.
-/

namespace R4OS.Ntfs

open Crash Text

/-- Results of the mutating operations. -/
inductive WriteStatus
  | ok
  | invalid
  | not_found
  | exists
  | directory
  | not_directory
  | not_empty
  | read_only_target
  | no_space
  | dir_full
  | record_full
  | unsupported
  | offset_mismatch
  | io
  | cleanup_failed
  deriving DecidableEq

/-- Continue after a step that succeeded. -/
def require {Result : Type} (step : VolumeProgram Bool) (failed next : VolumeProgram Result) :
    VolumeProgram Result := do
  if ← step then next else failed

section

variable (v : Volume)

def Volume.geometryValid : Bool :=
  v.cluster_bytes ≠ 0 && v.cluster_bytes % SECTOR_SIZE = 0 &&
    (checkedMulU64 v.total_sectors SECTOR_SIZE).isSome

/-- Whether a run lies inside the volume. -/
def mappedRunPhysicalRangeValid (run : Run) : Bool :=
  run.length_clusters ≠ 0 && v.geometryValid &&
    match run.lcn with
    | none => true
    | some lcn =>
      decide (lcn < v.totalClusters ∧ run.length_clusters ≤ v.totalClusters - lcn) &&
        (checkedMulU64 lcn v.cluster_bytes).isSome &&
        (checkedMulU64 run.length_clusters v.cluster_bytes).isSome

/-- Clusters of the runs, unless they overflow a machine word or leave the volume. -/
def runlistClusters : (logical_clusters : Nat) → List Run → Option Nat
  | logical_clusters, [] => some logical_clusters
  | logical_clusters, run :: rest => do
      let logical_clusters ← checkedAddU64 logical_clusters run.length_clusters
      if mappedRunPhysicalRangeValid v run then runlistClusters logical_clusters rest else none

/-- Whether a run list lies inside the volume. -/
def runlistPhysicalRangeValid (runs : List Run) : Bool :=
  v.geometryValid && (runlistClusters v 0 runs).isSome

/-- The first byte of a range inside the extent that starts at a cluster. -/
def lcnByteRange (lcn byte_offset length : Nat) : Option Nat :=
  if ¬(v.cluster_bytes ≠ 0 ∧ v.cluster_bytes % SECTOR_SIZE = 0 ∧ lcn < v.totalClusters) then none
  else do
    let lcn_window ← checkedMulU64 (v.totalClusters - lcn) v.cluster_bytes
    if byte_offset ≤ lcn_window ∧ length ≤ lcn_window - byte_offset then
      let volume_bytes ← checkedMulU64 v.total_sectors SECTOR_SIZE
      let lcn_bytes ← checkedMulU64 lcn v.cluster_bytes
      let first_byte ← checkedAddU64 lcn_bytes byte_offset
      if first_byte ≤ volume_bytes ∧ length ≤ volume_bytes - first_byte then some first_byte
      else none
    else none

/-- Read bytes inside an extent. -/
def readLcnBytes (lcn byte_offset length : Nat) : VolumeProgram (Option Bytes) :=
  match lcnByteRange v lcn byte_offset length with
  | none => return none
  | some first_byte =>
    if length = 0 then return some [] else (VolumeCall.readBytes first_byte length).perform

/-- Write bytes inside an extent, or answer how many of them are confirmed. -/
def writeLcnBytesProgress (lcn byte_offset : Nat) (data : Bytes) :
    VolumeProgram (Except Nat Unit) :=
  match lcnByteRange v lcn byte_offset data.length with
  | none => return .error 0
  | some first_byte =>
    if data = [] then return .ok ()
    else if v.mft_mirror_bootstrap then return .error 0
    else (VolumeCall.writeBytes first_byte data).perform

/-- Write bytes inside an extent. -/
def writeLcnBytes (lcn byte_offset : Nat) (data : Bytes) : VolumeProgram Bool := do
  return (← writeLcnBytesProgress v lcn byte_offset data).toBool

/-- Read a byte range of one run.  A hole reads as zeros. -/
def readRun (run : Run) (byte_offset length : Nat) : VolumeProgram (Option Bytes) :=
  match run.lcn with
  | some lcn => readLcnBytes v lcn byte_offset length
  | none => return some (List.replicate length 0)

def readRuns : List Run → (run_start want_start want_len : Nat) → VolumeProgram (Option Bytes)
  | [], _, _, want_len => return if want_len = 0 then some [] else none
  | run :: rest, run_start, want_start, want_len =>
    match checkedMulU64 run.length_clusters v.cluster_bytes with
    | none => return none
    | some run_bytes =>
      match checkedAddU64 run_start run_bytes with
      | none => return none
      | some run_end =>
        if want_len = 0 then return some []
        else if want_start < run_end then
          if want_start < run_start then return none
          else do
            let take := min (run_end - want_start) want_len
            match ← readRun v run (want_start - run_start) take with
            | none => return none
            | some span =>
              let rest ← readRuns rest run_end (want_start + take) (want_len - take)
              return rest.map (span ++ ·)
        else readRuns rest run_end want_start want_len

/-- Read a byte range in the address space of a run list. -/
def readRunBytes (runs : List Run) (byte_offset length : Nat) : VolumeProgram (Option Bytes) :=
  if runlistPhysicalRangeValid v runs then readRuns v runs 0 byte_offset length else return none

/-- Write a byte range of the runs from `run_start` on.  A hole cannot be written to. -/
def writeRuns : List Run → (run_start want_start : Nat) → (data : Bytes) → (completed : Nat) →
    VolumeProgram (Except Nat Unit)
  | [], _, _, data, completed => return if data = [] then .ok () else .error completed
  | run :: rest, run_start, want_start, data, completed =>
    match checkedMulU64 run.length_clusters v.cluster_bytes with
    | none => return .error completed
    | some run_bytes =>
      match checkedAddU64 run_start run_bytes with
      | none => return .error completed
      | some run_end =>
        if data = [] then return .ok ()
        else if want_start < run_end then
          if want_start < run_start then return .error completed
          else
            let take := min (run_end - want_start) data.length
            match run.lcn with
            | none => return .error completed
            | some lcn => do
                match ← writeLcnBytesProgress v lcn (want_start - run_start)
                    (data.take take) with
                | .error confirmed => return .error (completed + confirmed)
                | .ok () =>
                  writeRuns rest run_end (want_start + take) (data.drop take)
                    (completed + take)
        else writeRuns rest run_end want_start data completed

/-- Write a byte range in the address space of a run list, or answer how many bytes of it are
confirmed. -/
def writeRunBytesProgress (runs : List Run) (byte_offset : Nat) (data : Bytes) :
    VolumeProgram (Except Nat Unit) :=
  if runlistPhysicalRangeValid v runs then writeRuns v runs 0 byte_offset data 0
  else return .error 0

/-- Write a byte range in the address space of a run list. -/
def writeRunBytes (runs : List Run) (byte_offset : Nat) (data : Bytes) : VolumeProgram Bool := do
  return (← writeRunBytesProgress v runs byte_offset data).toBool

/-- Set or clear a range of bits, one sector of the bitmap after the other. -/
def setBitmapSectors (set : Bool) : (rounds cluster last : Nat) → VolumeProgram Bool
  | 0, _, _ => return true
  | rounds + 1, cluster, last =>
    if cluster < last then
      let next := min last ((cluster / 8 / SECTOR_SIZE + 1) * SECTOR_SIZE * 8)
      require (VolumeCall.patchClusterBits cluster (next - cluster) set).perform (return false) <|
        setBitmapSectors set rounds next last
    else return true

def setBitmapRange (lcn count : Nat) (set : Bool) : VolumeProgram Bool :=
  if count = 0 then return true
  else if ¬(lcn < v.totalClusters ∧ count ≤ v.totalClusters - lcn) then return false
  else if v.mft_mirror_bootstrap then return false
  else setBitmapSectors set count lcn (lcn + count)

/-- Clear every run in the bitmap, going on after a failure. -/
def rollbackClusterRanges : List Run → VolumeProgram Bool
  | [] => return true
  | run :: rest => do
      let ok ← match run.lcn with
        | none => pure true
        | some lcn => setBitmapRange v lcn run.length_clusters false
      return (← rollbackClusterRanges rest) && ok

/-- Move the search hint for clusters. -/
def setClusterSearchStart (next : Nat → Nat) : VolumeProgram Unit := do
  let scratch ← VolumeCall.readScratch.perform
  (VolumeCall.setScratch { scratch with
    cluster_search_start := next scratch.cluster_search_start }).perform

/-- Clear runs in the bitmap, up to the first failure. -/
def freeRuns : List Run → VolumeProgram Bool
  | [] => return true
  | run :: rest =>
    match run.lcn with
    | none => freeRuns rest
    | some lcn =>
      require (setBitmapRange v lcn run.length_clusters false) (return false) <| do
        setClusterSearchStart (min lcn)
        freeRuns rest

def freeClusters (runs : List Run) : VolumeProgram Bool :=
  if runlistPhysicalRangeValid v runs then
    require VolumeCall.collectBitmap.perform (return false) (freeRuns v runs)
  else return false

/-- Result of a search for free clusters. -/
inductive FindFreeRunResult
  | found (run : Run)
  | failed (status : WriteStatus)

/-- The run that a search has collected. -/
def FindFreeRunResult.finish (run_start : Option Nat) (run_len : Nat) : FindFreeRunResult :=
  match run_start with
  | none => .failed .no_space
  | some start =>
    if run_len = 0 then .failed .no_space
    else .found { length_clusters := run_len, lcn := some start }

/-- Scan the bitmap from a cluster on for the given number of clusters. -/
def findFreeRunFrom (max_len : Nat) :
    (rounds cluster : Nat) → (run_start : Option Nat) → (run_len : Nat) →
      VolumeProgram FindFreeRunResult
  | 0, _, run_start, run_len => return .finish run_start run_len
  | rounds + 1, cluster, run_start, run_len => do
      match ← (VolumeCall.clusterBit cluster).perform with
      | none => return .failed .io
      | some false =>
        let start := run_start.getD cluster
        if run_len + 1 = max_len then return .finish (some start) (run_len + 1)
        else findFreeRunFrom max_len rounds (cluster + 1) (some start) (run_len + 1)
      | some true =>
        if run_start.isSome then return .finish run_start run_len
        else findFreeRunFrom max_len rounds (cluster + 1) none run_len

/-- The first free run from a cluster on, cut to the given length. -/
def findFreeRun (total start max_len : Nat) : VolumeProgram FindFreeRunResult :=
  findFreeRunFrom max_len (total - start) start none 0

inductive AllocationResult
  | produced (runs : List Run)
  | failed (status : WriteStatus)

/-- Collect free runs from `start` to `last`, once around the volume. -/
def planRuns (capacity first : Nat) :
    (rounds needed start last : Nat) → (wrapped : Bool) → (out : List Run) →
      VolumeProgram AllocationResult
  | 0, _, _, _, _, _ => return .failed .record_full
  | rounds + 1, needed, start, last, wrapped, out => do
      if needed = 0 then return .produced out
      else if out.length = capacity then return .failed .record_full
      else
        match ← findFreeRun last start needed with
        | .failed status =>
          if status = .no_space ∧ wrapped = false then
            planRuns capacity first rounds needed 0 first true out
          else return .failed status
        | .found run =>
          planRuns capacity first rounds (needed - run.length_clusters)
            (run.lcn.getD 0 + run.length_clusters) last wrapped (out ++ [run])

/-- Find free runs for a number of clusters without changing the bitmap. -/
def planClusters (capacity total start count : Nat) : VolumeProgram AllocationResult :=
  planRuns capacity start (capacity + 2) count start total (start = 0) []

/-- Plan from the search hint, and from the first cluster when that takes too many runs. -/
def planFromHint (capacity total start count : Nat) : VolumeProgram AllocationResult := do
  match ← planClusters capacity total start count with
  | .failed .record_full =>
    if start ≠ 0 then planClusters capacity total 0 count else return .failed .record_full
  | planned => return planned

/-- Mark planned runs, and take back what was marked when one of them fails. -/
def markRuns (marked : List Run) : List Run → VolumeProgram (Option WriteStatus)
  | [] => return none
  | run :: rest => do
      if ← setBitmapRange v (run.lcn.getD 0) run.length_clusters true then
        markRuns (marked ++ [run]) rest
      else
        let rolled_back ← rollbackClusterRanges v (marked ++ [run])
        return some (if rolled_back then .io else .cleanup_failed)

def allocateClusters (count capacity : Nat) : VolumeProgram AllocationResult :=
  require VolumeCall.collectBitmap.perform (return .failed .io) <|
  if count = 0 then return .produced []
  else do
    let total := v.totalClusters
    let scratch ← VolumeCall.readScratch.perform
    let start := if scratch.cluster_search_start < total then scratch.cluster_search_start else 0
    match ← planFromHint capacity total start count with
    | .failed status => return .failed status
    | .produced runs =>
      match ← markRuns v [] runs with
      | some status => return .failed status
      | none =>
        let next := (runs.getLast?.map fun run => run.lcn.getD 0 + run.length_clusters).getD 0
        setClusterSearchStart fun _ => if next < total then next else 0
        return .produced runs

end

end R4OS.Ntfs
