import Mathlib.Data.Fin.VecNotation
import R4OS.Block.DeviceRules
import R4OS.Gpt.Format

/-!
# Inspection and repair of a GUID partition table

A report on both copies of the table, and the repair of one copy from the other one.  The protective
boot record is looked at as well.  Fingerprints of what was read are compared with any digest.
-/

namespace R4OS.Gpt

open Block Crash Text

/-- Entries that the tools support. -/
def max_entries : Nat := 128

/-- Bytes of the entries that the tools support. -/
def max_array_bytes : Nat := max_entries * 128

/-- One byte of a record. -/
def byteAt (data : Bytes) (place : Nat) : UInt8 := data.getD place 0

/-- One copy of the table as it was found. -/
structure Copy where
  sector : Bytes
  header : Option Header
  array : Bytes
  reason : Option Fault

/-- Whether a copy is intact. -/
def Copy.valid (copy : Copy) : Bool := copy.reason.isNone && copy.header.isSome

/-- The table that a copy describes. -/
structure Table where
  disk_guid : Guid
  first_usable_lba : Nat
  last_usable_lba : Nat
  entry_count : Nat
  entry_size : Nat
  entries : Bytes

/-- The table of a copy whose header was parsed. -/
def Copy.table (copy : Copy) : Option Table := copy.header.map fun header => {
  disk_guid := header.disk_guid
  first_usable_lba := header.first_usable_lba
  last_usable_lba := header.last_usable_lba
  entry_count := header.entry_count
  entry_size := header.entry_size
  entries := copy.array.take header.entryBytes }

/-- Compare an entry with an earlier one. -/
def comparePartitions (header : Header) (array : Bytes) (a : Partition) (j : Nat) :
    Except Fault Unit := do
  match ← parsePartition (slice array (j * 128) 128) header with
  | none => return ()
  | some b =>
    refuse (a.first_lba ≤ b.last_lba ∧ b.first_lba ≤ a.last_lba) .Overlap
    refuse (a.unique_guid = b.unique_guid) .DuplicateGuid

/-- Check an entry of a copy. -/
def validatePartition (header : Header) (array : Bytes) (i : Nat) : Except Fault Unit := do
  match ← parsePartition (slice array (i * 128) 128) header with
  | none => return ()
  | some a =>
    refuse (a.unique_guid.isZero ∨ a.unique_guid = header.disk_guid) .PartitionGuid
    (List.range i).forM (comparePartitions header array a)

/-- Check the entries of a copy against its header. -/
def validateCopy (header : Header) (array : Bytes) (sectors : Nat) : Except Fault Unit := do
  refuse (header.disk_guid.isZero) .PartitionGuid
  refuse (crc (array.take header.entryBytes) ≠ header.entries_crc32) .GptArrayCrc
  refuse (header.first_usable_lba < 2 + header.entrySectors ∨
    sectors - 1 - header.entrySectors ≤ header.last_usable_lba) .Geometry
  (List.range header.entry_count).forM (validatePartition header array)

/-- Whether the tools support the layout of a header. -/
def supported (sector : Bytes) (header : Header) : Bool :=
  readLe 4 sector 12 = 92 && header.entry_size = 128 && header.entry_count ≤ max_entries

/-- The fault of a check. -/
def faultOf : Except Fault Unit → Option Fault
  | .error fault => some fault
  | .ok () => none

/-- Read the copy whose header is at a sector. -/
def readCopy (device : BlockDevice) (lba : Nat) : Action Copy := do
  let sector ← device.read lba 1
  match parseHeader sector lba device.sectors with
  | .error reason => return ⟨sector, none, [], some reason⟩
  | .ok header =>
    if supported sector header then do
      let array ← device.read header.entries_lba header.entrySectors
      return ⟨sector, some header, array, faultOf (validateCopy header array device.sectors)⟩
    else return ⟨sector, some header, [], some .GptLayoutUnsupported⟩

/-- Whether two headers describe one table. -/
def related (a b : Header) : Bool :=
  a.disk_guid = b.disk_guid && a.first_usable_lba = b.first_usable_lba &&
    a.last_usable_lba = b.last_usable_lba && a.entry_count = b.entry_count &&
    a.entry_size = b.entry_size

/-- Check one slot of the boot record and count it when it is protective. -/
def checkMbrSlot (mbr : Bytes) (sectors slot : Nat) : Except Fault Nat :=
  let p := slice mbr (446 + slot * 16) 16
  if byteAt p 4 = 0 then
    if readLe 4 p 8 ≠ 0 ∨ readLe 4 p 12 ≠ 0 then .error .ProtectiveMbr else .ok 0
  else if byteAt p 4 ≠ 0xee ∨ byteAt p 0 ≠ 0 ∨ readLe 4 p 8 ≠ 1 ∨
      readLe 4 p 12 ≠ min (sectors - 1) (2 ^ 32 - 1) then .error .ProtectiveMbr
  else .ok 1

/-- Check the boot record. -/
def checkMbr (mbr : Bytes) (sectors : Nat) : Except Fault Unit := do
  refuse (byteAt mbr 510 ≠ 0x55 ∨ byteAt mbr 511 ≠ 0xaa) .ProtectiveMbr
  let counts ← (List.range 4).mapM (checkMbrSlot mbr sectors)
  refuse (counts.sum ≠ 1) .ProtectiveMbr

/-- What an inspection says. -/
inductive Status
  | healthy
  | primary_damaged
  | backup_damaged
  | both_invalid
  | conflict
  | protective_mbr_invalid
  deriving DecidableEq

/-- Compare the copies. -/
def statusOf (mbr_reason : Option Fault) (a b : Copy) : Status :=
  if mbr_reason.isSome then .protective_mbr_invalid
  else if !a.valid && !b.valid then .both_invalid
  else
    match a.header, b.header with
    | some first, some second =>
      if !related first second then .conflict
      else if a.valid && b.valid then
        if a.array.take first.entryBytes = b.array.take second.entryBytes then .healthy
        else .conflict
      else if a.valid then .backup_damaged else .primary_damaged
    | _, _ => if a.valid then .backup_damaged else .primary_damaged

/-- A report on a device.  The primary copy comes first. -/
structure Report (Digest : Type) where
  sectors : Nat
  copies : Fin 2 → Copy
  mbr : Bytes
  mbr_reason : Option Fault
  status : Status
  fingerprint : Digest

section Report

variable {Digest : Type} [DecidableEq Digest] (sha256 : Bytes → Digest)

/-- The report on what was read. -/
def Report.make (sectors : Nat) (mbr : Bytes) (primary backup : Copy) : Report Digest where
  sectors
  copies := ![primary, backup]
  mbr
  mbr_reason := faultOf (checkMbr mbr sectors)
  status := statusOf (faultOf (checkMbr mbr sectors)) primary backup
  fingerprint := sha256 (mbr ++ (primary.sector ++ primary.array) ++ (backup.sector ++ backup.array))

/-- Inspect a device. -/
def Report.read (device : BlockDevice) : Action (Report Digest) := do
  computed device.validate
  require (68 ≤ device.sectors) .Geometry
  let mbr ← device.read 0 1
  let primary ← readCopy device 1
  let backup ← readCopy device (device.sectors - 1)
  return Report.make sha256 device.sectors mbr primary backup

/-- The copy that can be repaired. -/
def Report.repairable (report : Report Digest) : Except Fault (Fin 2) :=
  match report.status with
  | .primary_damaged => .ok 0
  | .backup_damaged => .ok 1
  | .healthy => .error .GptAlreadyHealthy
  | .both_invalid => .error .GptBothInvalid
  | .conflict => .error .GptCopiesDisagree
  | .protective_mbr_invalid => .error .ProtectiveMbr

def headerLba (sectors : Nat) (copy : Fin 2) : Nat := if copy = 0 then 1 else sectors - 1

/-- Where the entries of the damaged copy belong, as its own header says or at the usual place. -/
def arrayLba (sectors : Nat) (bad : Fin 2) (header : Header) : Option Header → Nat
  | some old => old.entries_lba
  | none => if bad = 0 then 2 else sectors - 1 - header.entrySectors

/-- The counterpart of a header. -/
def counterpart (sector : Bytes) (current other entries : Nat) : Bytes :=
  let moved := put (put (put sector 24 (leBytes 8 current)) 32 (leBytes 8 other)) 72
    (leBytes 8 entries)
  let blank := put moved 16 (leBytes 4 0)
  put blank 16 (leBytes 4 (crc (slice blank 0 92)))

/-- Write and compare the entries of the damaged copy, and then its header. -/
def Report.restoreCopy (report : Report Digest) (device : BlockDevice) (work : Nat) (bad : Fin 2)
    (good : Copy) (header : Header) : Action Unit := do
  let new_lba := headerLba report.sectors bad
  let array_lba := arrayLba report.sectors bad header (report.copies bad).header
  let new_header := counterpart good.sector new_lba header.current_lba array_lba
  let _ ← computed (parseHeader new_header new_lba device.sectors)
  device.write array_lba good.array
  device.flush
  device.verify array_lba good.array work
  device.write new_lba new_header
  device.flush
  device.verify new_lba new_header work
  device.verify header.current_lba good.sector work
  device.verify header.entries_lba good.array work
  device.verify 0 report.mbr work

/-- Repair the damaged copy after everything that was observed is seen again. -/
def Report.repair (report : Report Digest) (device : BlockDevice) (work : Nat) : Action Unit := do
  let bad ← computed report.repairable
  computed device.requireExclusive
  require (device.sectors = report.sectors && sector_size ≤ work && work % sector_size = 0) .Geometry
  let current ← Report.read sha256 device
  require (report.fingerprint = current.fingerprint && report.status = current.status) .Stale
  match (report.copies (1 - bad)).header with
  -- the other copy of a repairable report has a header
  | none => throw .GptBothInvalid
  | some header => report.restoreCopy device work bad (report.copies (1 - bad)) header

end Report

end R4OS.Gpt
