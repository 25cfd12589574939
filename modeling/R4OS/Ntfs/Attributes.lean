import R4OS.Ntfs.ClusterIo

/-!
# Attributes of file records

Collecting the unnamed data stream of a file, reading it, and editing the attributes of a record.
-/

namespace R4OS.Ntfs

open Crash Text

/-- A collected attribute. -/
structure AttrScratch where
  flags : AttributeFlags
  /-- The value, when it is kept inside the record. -/
  resident : Option Bytes
  runs : List Run
  data_size : Nat
  initialized_size : Nat
  alloc_size : Nat

/-- Result of a lookup that may fail. -/
inductive LookupStatus (Found : Type)
  | found (result : Found)
  | not_found
  | io

section

variable (v : Volume)

def loadRecord (number : Nat) : VolumeProgram (Option FileRecord) := do
  return (← (VolumeCall.loadSlot number).perform).bind RecordSlot.record?

def storeSlot (number : Nat) (slot : RecordSlot) : VolumeProgram Bool :=
  if v.mft_mirror_bootstrap then return false else (VolumeCall.storeSlot number slot).perform

def storeRecord (number : Nat) (record : FileRecord) : VolumeProgram Bool :=
  storeSlot v number (.live record)

def captureRuns (collected : List Run) : List Run → (extent_run_clusters : Nat) →
    Option (List Run × Nat)
  | [], extent_run_clusters => some (collected, extent_run_clusters)
  | run :: rest, extent_run_clusters => do
      let extent_run_clusters ← checkedAddU64 extent_run_clusters run.length_clusters
      if mappedRunPhysicalRangeValid v run && decide (collected.length < MAX_ATTR_RUNS) then
        captureRuns (collected ++ [run]) rest extent_run_clusters
      else none

/-- Add one attribute to what was collected, together with the cluster that an extent behind it has
to start at. -/
def captureAttribute (attr : DataAttribute) (collected : Option (AttrScratch × Nat)) :
    Option (AttrScratch × Nat) :=
  match attr.body with
  | .resident _ value =>
    if collected.isSome ∨ 1024 < value.length then none
    else some ({
      flags := attr.flags, resident := some value, runs := [],
      data_size := value.length, initialized_size := value.length,
      alloc_size := (value.length + 7) / 8 * 8 }, 0)
  | .non_resident fields =>
    let begun : Option AttrScratch := match collected with
      | none =>
        if fields.lowest_vcn = 0 ∧ fields.initialized_size ≤ fields.data_size then
          some {
            flags := attr.flags, resident := none, runs := [],
            data_size := fields.data_size, initialized_size := fields.initialized_size,
            alloc_size := fields.allocated_size }
        else none
      | some (begun, next_vcn) =>
        if begun.resident = none ∧ fields.lowest_vcn ≠ 0 ∧ fields.lowest_vcn = next_vcn then
          some begun
        else none
    if fields.highest_vcn < fields.lowest_vcn then none
    else do
      let begun ← begun
      let extent_clusters ← checkedAddU64 (fields.highest_vcn - fields.lowest_vcn) 1
      let extent ← readMappingPairs fields.mapping_pairs
      let (runs, extent_run_clusters) ← captureRuns v begun.runs extent 0
      let next_vcn ← checkedAddU64 fields.highest_vcn 1
      if extent_run_clusters = extent_clusters then some ({ begun with runs := runs }, next_vcn)
      else none

def listedAttribute (number sequence : Nat) (entry : AttributeListEntry) (part : FileRecord) :
    Option DataAttribute :=
  if part.sequence = entry.mft_reference.sequence ∧
      (entry.mft_reference.record = number ∨ part.base_record = some ⟨number, sequence⟩) then
    match part.data with
    | none => none
    | some attr =>
      if attr.instance_id ≠ entry.instance_id then none
      else match attr.body with
        | .resident _ _ => if entry.lowest_vcn = 0 then some attr else none
        | .non_resident fields =>
          if fields.lowest_vcn = entry.lowest_vcn then some attr else none
  else none

def collectListed (number sequence : Nat) :
    List AttributeListEntry → (collected : Option (AttrScratch × Nat)) →
      VolumeProgram (Option (Option (AttrScratch × Nat)))
  | [], collected => return some collected
  | entry :: rest, collected => do
      match ← loadRecord entry.mft_reference.record with
      | none => return none
      | some part =>
        match (listedAttribute number sequence entry part).bind
            (captureAttribute v · collected) with
        | none => return none
        | some captured => collectListed number sequence rest (some captured)

/-- Collect the data attribute of the base record itself. -/
def collectDirect (base : FileRecord) : LookupStatus AttrScratch :=
  match base.data with
  | none => .not_found
  | some attr =>
    match captureAttribute v attr none with
    | none => .io
    | some (collected, _) => .found collected

/-- Collect the unnamed data stream of a file. -/
def collectAttributeStatus (number : Nat) : VolumeProgram (LookupStatus AttrScratch) := do
  match ← loadRecord number with
  | none => return .io
  | some base =>
    match base.attribute_lists with
    | [] => return collectDirect v base
    | { entries := none, .. } :: _ => return .io
    | { entries := some entries, .. } :: _ =>
      match ← collectListed v number base.sequence entries none with
      | none => return .io
      | some (some (collected, _)) => return .found collected
      | some none => return collectDirect v base

/-- Read a range of a collected attribute. -/
def readAttrRange (attr : AttrScratch) (offset length : Nat) : VolumeProgram (Option Bytes) :=
  if attr.flags.encrypted then return none
  else if attr.data_size ≤ offset then return some []
  else
    let want := min length (attr.data_size - offset)
    match attr.resident with
    | some value => return some ((value.drop offset).take want)
    | none =>
      -- Compressed streams are read by another decoder.
      if attr.flags.compressed then return none
      else do
        let initialized := min want (attr.initialized_size - offset)
        match ← readRunBytes v attr.runs offset initialized with
        | none => return none
        | some bytes => return some (bytes ++ List.replicate (want - initialized) 0)

/-- Read a range of the unnamed data stream. -/
def readFileRange (number offset length : Nat) : VolumeProgram (Option Bytes) := do
  match ← collectAttributeStatus v number with
  | .found attr => readAttrRange v attr offset length
  | .not_found | .io => return none

/-- Round a length up to the alignment of attributes. -/
def align8 (length : Nat) : Nat := (length + 7) / 8 * 8

def FileRecord.resizeAttr (record : FileRecord) (attr : DataAttribute) (new_length : Nat) :
    Option DataAttribute :=
  if align8 new_length = attr.length then some attr
  else if v.record_bytes < record.bytes_in_use - attr.length + align8 new_length then none
  else some { attr with length := align8 new_length }

/-- Replace the value of a resident data attribute. -/
def FileRecord.updateResident (record : FileRecord) (value : Bytes) : Option FileRecord := do
  let attr ← record.data
  match attr.body with
  | .non_resident _ => none
  | .resident value_offset _ =>
    let attr ← record.resizeAttr v attr (value_offset + value.length)
    return { record with data := some { attr with body := .resident value_offset value } }

def runClusters (runs : List Run) : Option Nat :=
  runs.foldlM (fun sum run => checkedAddU64 sum run.length_clusters) 0

def FileRecord.updateNonResident (record : FileRecord) (runs : List Run)
    (data_size init_size alloc_size : Nat) : Option FileRecord := do
  let attr ← record.data
  match attr.body with
  | .resident _ _ => none
  | .non_resident fields =>
    let mapping ← encodeRuns 4096 0 runs
    let vcn_total ← runClusters runs
    if attr.length < fields.mapping_offset then none
    else
      let attr ← record.resizeAttr v attr (fields.mapping_offset + mapping.length)
      -- The allocation that a sparse attribute reports has to be computable.
      let mapped_clusters ← runClusters (runs.filter (·.lcn.isSome))
      if (attr.flags.sparse || attr.flags.compressed) ∧ 0x48 ≤ fields.mapping_offset ∧
          0 < vcn_total ∧ alloc_size % vcn_total = 0 ∧
          checkedMulU64 mapped_clusters (alloc_size / vcn_total) = none then none
      else
        return { record with data := some { attr with
          body := .non_resident { fields with
            highest_vcn := vcn_total - 1
            allocated_size := alloc_size
            data_size := data_size
            initialized_size := init_size
            mapping_pairs := mapping } } }

def nonResidentDataStub (data_size initialized_size alloc_size : Nat) : DataAttribute where
  instance_id := 0
  flags := ⟨false, false, false⟩
  length := 0x48
  body := .non_resident {
    mapping_offset := 0x40, lowest_vcn := 0, highest_vcn := 0, allocated_size := alloc_size,
    data_size := data_size, initialized_size := initialized_size, mapping_pairs := [0] }

def FileRecord.removeData (record : FileRecord) : Option FileRecord :=
  record.data.map fun _ => { record with data := none }

/-- Insert a data attribute, which gets the next instance number. -/
def FileRecord.insertData (record : FileRecord) (attr : DataAttribute) : Option FileRecord :=
  if v.record_bytes < record.bytes_in_use + attr.length then none
  else some { record with
    data := some { attr with instance_id := record.next_attr_instance }
    next_attr_instance := record.next_attr_instance + 1 }

def FileRecord.insertAttributeList (record : FileRecord) (list : AttributeList) :
    Option FileRecord :=
  if v.record_bytes < record.bytes_in_use + list.length then none
  else some { record with
    attribute_lists := record.attribute_lists ++ [list]
    next_attr_instance := record.next_attr_instance + 1 }

end

end R4OS.Ntfs
