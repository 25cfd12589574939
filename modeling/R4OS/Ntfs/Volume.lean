import R4OS.Crash.Program
import R4OS.Ntfs.Runlist

/-!
# NTFS volumes

A mounted volume: its file records as far as the unnamed data stream is concerned, the cluster and
record bitmaps, and the bytes of the clusters.  Device calls may fail; a failed write may have
changed the sectors it was about.
-/

namespace R4OS.Ntfs

open Crash Text

/-- Bytes of one sector. -/
def SECTOR_SIZE : Nat := 512

/-- The first record of user files. -/
def MFT_FIRST_NORMAL : Nat := 16

/-- The record of the master file table. -/
def MFT_RECORD_MFT : Nat := 0

/-- Runs that one collected attribute may have. -/
def MAX_ATTR_RUNS : Nat := 256

/-- Bytes of a value that is kept inside a file record. -/
def RESIDENT_DATA_MAX : Nat := 0x2A0

/-- Bytes of the longest name. -/
def NAME_MAX : Nat := 768

/-- A record together with the sequence number it had. -/
structure FileReference where
  record : Nat
  sequence : Nat
  deriving DecidableEq

structure AttributeFlags where
  compressed : Bool
  encrypted : Bool
  sparse : Bool

/-- The fields of a non-resident attribute. -/
structure NonResident where
  mapping_offset : Nat
  lowest_vcn : Nat
  highest_vcn : Nat
  allocated_size : Nat
  data_size : Nat
  initialized_size : Nat
  mapping_pairs : Bytes

/-- Where an attribute keeps its value. -/
inductive AttributeBody
  | resident (value_offset : Nat) (value : Bytes)
  | non_resident (fields : NonResident)

/-- An unnamed data attribute and the bytes it takes in its record. -/
structure DataAttribute where
  instance_id : Nat
  flags : AttributeFlags
  length : Nat
  body : AttributeBody

/-- An entry of an attribute list that names the unnamed data stream. -/
structure AttributeListEntry where
  lowest_vcn : Nat
  mft_reference : FileReference
  instance_id : Nat

/-- An attribute list with its entries for the unnamed data stream, if it is resident and
well-formed. -/
structure AttributeList where
  length : Nat
  entries : Option (List AttributeListEntry)

structure FileRecord where
  sequence : Nat
  link_count : Nat
  is_directory : Bool
  base_record : Option FileReference
  next_attr_instance : Nat
  has_standard_information : Bool
  has_file_name : Bool
  /-- Bytes in use by everything else. -/
  other_bytes : Nat
  attribute_lists : List AttributeList
  data : Option DataAttribute

def FileRecord.bytes_in_use (record : FileRecord) : Nat :=
  record.other_bytes + (record.attribute_lists.map (·.length)).sum +
    (record.data.map (·.length)).getD 0

/-- What a place of the master file table holds. -/
inductive RecordSlot
  | blank
  | free (sequence : Nat)
  | live (record : FileRecord)

def RecordSlot.record? : RecordSlot → Option FileRecord
  | .live record => some record
  | .blank | .free _ => none

/-- What an index entry says about its object. -/
structure DirectoryEntry where
  record : Nat
  sequence : Nat
  is_directory : Bool

/-- The fixed facts about a mounted volume. -/
structure Volume where
  cluster_bytes : Nat
  record_bytes : Nat
  total_sectors : Nat
  /-- Bytes of the record bitmap, which never grows. -/
  record_bitmap_bytes : Nat
  /-- Room of the run list that addresses the master file table. -/
  mft_runs_capacity : Nat
  /-- Whether the table was found through its mirror only. -/
  mft_mirror_bootstrap : Bool
  /-- The directory indexes. -/
  directory : (parent : Nat) → (name : Bytes) → Option DirectoryEntry

def Volume.totalClusters (v : Volume) : Nat :=
  if v.cluster_bytes = 0 ∨ v.cluster_bytes % SECTOR_SIZE ≠ 0 then 0
  else v.total_sectors / (v.cluster_bytes / SECTOR_SIZE)

/-- Search hints and the repair mark of a mount. -/
structure Scratch where
  cluster_search_start : Nat
  record_search_start : Nat
  repair_required : Bool

/-- What the operations change. -/
structure VolumeState where
  bytes : Nat → UInt8
  records : Nat → RecordSlot
  cluster_used : Nat → Bool
  record_used : Nat → Bool
  /-- Records that the table addresses. -/
  record_count : Nat
  dirty : Bool
  scratch : Scratch

/-- The bytes of a range. -/
def slice (bytes : Nat → UInt8) (offset length : Nat) : Bytes :=
  (List.range length).map fun position => bytes (offset + position)

/-- Replace the bytes of a range. -/
def overwrite (bytes : Nat → UInt8) (offset : Nat) (data : Bytes) : Nat → UInt8 := fun address =>
  if offset ≤ address ∧ address < offset + data.length then data.getD (address - offset) 0
  else bytes address

def setRange (bits : Nat → Bool) (first count : Nat) (set : Bool) : Nat → Bool := fun index =>
  if first ≤ index ∧ index < first + count then set else bits index

/-- Calls of the volume code to the device and to the mount state. -/
inductive VolumeCall
  | readBytes (offset length : Nat)
  | writeBytes (offset : Nat) (data : Bytes)
  | flush
  | loadSlot (number : Nat)
  | storeSlot (number : Nat) (slot : RecordSlot)
  | collectBitmap
  | clusterBit (cluster : Nat)
  | patchClusterBits (first count : Nat) (set : Bool)
  | collectRecordBitmap
  | recordBit (number : Nat)
  | patchRecordBit (number : Nat) (set : Bool)
  | isDirty
  | storeDirty (dirty : Bool)
  | lookup (parent : Nat) (name : Bytes)
  | updateIndexEntrySizes (parent : Nat) (name : Bytes)
  | addressRecords (first count : Nat)
  | readScratch
  | setScratch (scratch : Scratch)

/-- Answers of the calls.  A call that answers nothing or false has failed; a write of bytes that
failed answers how many bytes are confirmed. -/
abbrev VolumeCall.Answer : VolumeCall → Type
  | .readBytes _ _ => Option Bytes
  | .writeBytes _ _ => Except Nat Unit
  | .flush => Bool
  | .loadSlot _ => Option RecordSlot
  | .storeSlot _ _ => Bool
  | .collectBitmap => Bool
  | .clusterBit _ => Option Bool
  | .patchClusterBits _ _ _ => Bool
  | .collectRecordBitmap => Bool
  | .recordBit _ => Option Bool
  | .patchRecordBit _ _ => Bool
  | .isDirty => Option Bool
  | .storeDirty _ => Bool
  | .lookup _ _ => Option (Option DirectoryEntry)
  | .updateIndexEntrySizes _ _ => Bool
  | .addressRecords _ _ => Unit
  | .readScratch => Scratch
  | .setScratch _ => Unit

/-- Programs of the volume code. -/
abbrev VolumeProgram := Program VolumeCall.Answer

def VolumeCall.perform (call : VolumeCall) : VolumeProgram call.Answer := Program.perform call

/-- The answer and the effect of a call that succeeds. -/
def VolumeCall.succeed (v : Volume) :
    (call : VolumeCall) → VolumeState → call.Answer × VolumeState
  | .readBytes offset length, state => (some (slice state.bytes offset length), state)
  | .writeBytes offset data, state =>
    (.ok (), { state with bytes := overwrite state.bytes offset data })
  | .flush, state => (true, state)
  | .loadSlot number, state =>
    (if number < state.record_count then some (state.records number) else none, state)
  | .storeSlot number slot, state =>
    (true, { state with records := Function.update state.records number slot })
  | .collectBitmap, state => (true, state)
  | .clusterBit cluster, state => (some (state.cluster_used cluster), state)
  | .patchClusterBits first count set, state =>
    (true, { state with cluster_used := setRange state.cluster_used first count set })
  | .collectRecordBitmap, state => (true, state)
  | .recordBit number, state => (some (state.record_used number), state)
  | .patchRecordBit number set, state =>
    (true, { state with record_used := Function.update state.record_used number set })
  | .isDirty, state => (some state.dirty, state)
  | .storeDirty dirty, state => (true, { state with dirty := dirty })
  | .lookup parent name, state => (some (v.directory parent name), state)
  | .updateIndexEntrySizes _ _, state => (true, state)
  | .addressRecords first count, state =>
    ((), { state with
      record_count := first + count
      records := fun number =>
        if first ≤ number ∧ number < first + count then .blank else state.records number })
  | .readScratch, state => (state.scratch, state)
  | .setScratch scratch, state => ((), { state with scratch := scratch })

def VolumeCall.Fails : (call : VolumeCall) → VolumeState → call.Answer → VolumeState → Prop
  | .readBytes _ _, before, answer, after => answer = none ∧ after = before
  | .writeBytes offset data, before, answer, after =>
    ∃ completed bytes, answer = .error completed ∧ after = { before with bytes := bytes } ∧
      completed ≤ data.length ∧
      (∀ address, offset ≤ address → address < offset + completed →
        bytes address = overwrite before.bytes offset data address) ∧
      ∀ address, address < offset / SECTOR_SIZE * SECTOR_SIZE ∨
          (offset + data.length + SECTOR_SIZE - 1) / SECTOR_SIZE * SECTOR_SIZE ≤ address →
        bytes address = before.bytes address
  | .flush, before, answer, after => answer = false ∧ after = before
  | .loadSlot _, before, answer, after => answer = none ∧ after = before
  | .storeSlot number _, before, answer, after =>
    answer = false ∧ ∃ slot, after = { before with
      records := Function.update before.records number slot }
  | .collectBitmap, before, answer, after => answer = false ∧ after = before
  | .clusterBit _, before, answer, after => answer = none ∧ after = before
  | .patchClusterBits first count _, before, answer, after =>
    answer = false ∧ ∃ bits, after = { before with cluster_used := bits } ∧
      ∀ cluster, cluster < first ∨ first + count ≤ cluster →
        bits cluster = before.cluster_used cluster
  | .collectRecordBitmap, before, answer, after => answer = false ∧ after = before
  | .recordBit _, before, answer, after => answer = none ∧ after = before
  | .patchRecordBit number _, before, answer, after =>
    answer = false ∧ ∃ bit, after = { before with
      record_used := Function.update before.record_used number bit }
  | .isDirty, before, answer, after => answer = none ∧ after = before
  | .storeDirty _, before, answer, after =>
    answer = false ∧ ∃ dirty, after = { before with dirty := dirty }
  | .lookup _ _, before, answer, after => answer = none ∧ after = before
  | .updateIndexEntrySizes _ _, before, answer, after => answer = false ∧ after = before
  | .addressRecords _ _, _, _, _ => False
  | .readScratch, _, _, _ => False
  | .setScratch _, _, _, _ => False

/-- The device: every call succeeds or fails. -/
def device (v : Volume) : Device VolumeCall.Answer VolumeState := fun call before answer after =>
  call.succeed v before = (answer, after) ∨ call.Fails before answer after

end R4OS.Ntfs
