import R4OS.Gpt.Plan

/-!
# Reading and committing a plan

A plan is read from both copies of the table or from the boot record, together with a digest of what
was read; it is committed copy by copy, the backup first and the boot record last.
-/

namespace R4OS.Gpt

open Block Crash Text

section Digests

variable {Digest : Type} (sha256 : Bytes → Digest)

def readSpan (device : BlockDevice) (buffer : Nat) : Nat → Nat → Nat → Action Bytes
  | 0, _, _ => return []
  | rounds + 1, first, count =>
    if count = 0 then return []
    else do
      let bytes ← device.read first (min count buffer)
      let rest ← readSpan device buffer rounds (first + min count buffer) (count - min count buffer)
      return bytes ++ rest

def readSpans (device : BlockDevice) (buffer : Nat) : List Range → Action Bytes
  | [] => return []
  | span :: spans => do
      let bytes ← readSpan device buffer span.count span.first span.count
      let rest ← readSpans device buffer spans
      return bytes ++ rest

/-- The digest of the sectors that a plan was read from, as they are now. -/
def Source.hash (source : Source Digest) (device : BlockDevice) (scratch : Nat) : Action Digest := do
  require (sector_size ≤ scratch && scratch % sector_size = 0) .Bounds
  let bytes ← readSpans device (scratch / sector_size) source.spans
  return sha256 bytes

end Digests

/-- A slot of the boot record. -/
def mbrSlot (mbr : Bytes) (slot : Nat) : Bytes := slice mbr (446 + slot * 16) 16

/-- Count the used and the protective slots of the boot record. -/
def countSlots (mbr : Bytes) (sectors : Nat) : List Nat → Except Fault (Nat × Nat)
  | [] => .ok (0, 0)
  | slot :: slots => do
      refuse (byteAt (mbrSlot mbr slot) 4 = 0xee ∧
        (readLe 4 (mbrSlot mbr slot) 8 ≠ 1 ∨
          readLe 4 (mbrSlot mbr slot) 12 ≠ min (sectors - 1) (2 ^ 32 - 1))) .ProtectiveMbr
      let counts ← countSlots mbr sectors slots
      return (counts.1 + (if byteAt (mbrSlot mbr slot) 4 ≠ 0 then 1 else 0),
        counts.2 + if byteAt (mbrSlot mbr slot) 4 = 0xee then 1 else 0)

/-- The partition in a slot of the boot record. -/
def readMbrEntry (mbr : Bytes) (slot : Nat) : Except Fault Entry :=
  let bytes := mbrSlot mbr slot
  if byteAt bytes 4 = 0 then do
    refuse (readLe 4 bytes 8 ≠ 0 ∨ readLe 4 bytes 12 ≠ 0) .PartitionRange
    return {}
  else do
    refuse (byteAt bytes 0 ≠ 0 ∧ byteAt bytes 0 ≠ 0x80) .ActiveFlag
    refuse (extended (byteAt bytes 4)) .ExtendedMbrUnsupported
    return {
      present := true
      first := readLe 4 bytes 8
      count := readLe 4 bytes 12
      mbr_type := byteAt bytes 4
      active := byteAt bytes 0 = 0x80
      mbr_original := fixed 16 bytes 0 }

/-- The partition in a slot of the entries. -/
def readGptEntry (header : Header) (array : Bytes) (slot : Nat) : Except Fault Entry := do
  match ← parsePartition (slice array (slot * 128) 128) header with
  | none => return {}
  | some part => return {
      present := true
      first := part.first_lba
      count := part.sectorCount
      type_guid := part.type_guid
      unique_guid := part.unique_guid
      attributes := UInt64.ofNat part.attributes
      name := part.name_utf16 }

def entrySlots (entries : List Entry) : Vector Entry max_entries :=
  Vector.ofFn fun slot => entries.getD slot {}

/-- The headers of both copies, if they agree. -/
def readHeaders (primary_sector backup_sector : Bytes) (sectors : Nat) :
    Except Fault (Header × Header) := do
  let primary ← parseHeader primary_sector 1 sectors
  let backup ← parseHeader backup_sector (sectors - 1) sectors
  refuse (readLe 4 primary_sector 12 ≠ 92 ∨ readLe 4 backup_sector 12 ≠ 92 ∨
    primary.entry_size ≠ 128 ∨ primary.entry_count = 0 ∨ max_entries < primary.entry_count)
    .GptLayoutUnsupported
  refuse (primary.disk_guid ≠ backup.disk_guid ∨
    primary.first_usable_lba ≠ backup.first_usable_lba ∨
    primary.last_usable_lba ≠ backup.last_usable_lba ∨
    primary.entry_count ≠ backup.entry_count ∨ primary.entry_size ≠ backup.entry_size ∨
    primary.entries_crc32 ≠ backup.entries_crc32) .GptCopiesDisagree
  return (primary, backup)

/-- The entries, if both arrays hold them. -/
def readEntries (primary : Header) (first second : Bytes) : Except Fault (List Entry) := do
  refuse (first.take primary.entryBytes ≠ second.take primary.entryBytes ∨
    crc (first.take primary.entryBytes) ≠ primary.entries_crc32) .GptArrayCrc
  (List.range primary.entry_count).mapM (readGptEntry primary first)

section Reading

variable {Digest : Type} [DecidableEq Digest] (sha256 : Bytes → Digest)

/-- The plan before any table is known. -/
def Plan.start (sectors : Nat) (mbr : Bytes) : Plan Digest where
  sectors
  last_usable := sectors - 1
  disk_id := UInt32.ofNat (readLe 4 mbr 440)
  mbr_prefix := fixed 446 mbr 0
  source := { spans := [⟨0, 1⟩, ⟨1, 1⟩, ⟨sectors - 1, 1⟩] }

/-- Read both copies; the bytes of the arrays come with the plan. -/
def Plan.readGpt (plan : Plan Digest) (device : BlockDevice) (primary_sector backup_sector : Bytes) :
    Action (Plan Digest × Bytes) := do
  let headers ← computed (readHeaders primary_sector backup_sector plan.sectors)
  let first ← device.read headers.1.entries_lba headers.1.entrySectors
  let second ← device.read headers.2.entries_lba headers.1.entrySectors
  let entries ← computed (readEntries headers.1 first second)
  return ({ plan with
    kind := .gpt
    disk_guid := headers.1.disk_guid
    first_usable := headers.1.first_usable_lba
    last_usable := headers.1.last_usable_lba
    entry_count := headers.1.entry_count
    primary_array := headers.1.entries_lba
    backup_array := headers.2.entries_lba
    entries := entrySlots entries
    source := { plan.source with
      spans := plan.source.spans ++ [⟨headers.1.entries_lba, headers.1.entrySectors⟩,
        ⟨headers.2.entries_lba, headers.1.entrySectors⟩] } }, first ++ second)

/-- Read the slots of the boot record. -/
def Plan.readMbr (plan : Plan Digest) (mbr : Bytes) : Except Fault (Plan Digest) := do
  let entries ← (List.range 4).mapM (readMbrEntry mbr)
  return { plan with kind := .mbr, entry_count := 4, entries := entrySlots entries }

/-- Whether a boot record is signed. -/
def signed (mbr : Bytes) : Bool := byteAt mbr 510 = 0x55 && byteAt mbr 511 = 0xaa

/-- Read the table that the boot record names. -/
def Plan.readTable (plan : Plan Digest) (device : BlockDevice) (mbr primary_sector backup_sector : Bytes) :
    Action (Plan Digest × Bytes) :=
  if signed mbr then do
    let counts ← computed (countSlots mbr plan.sectors (List.range 4))
    if counts.2 ≠ 0 then
      if counts.2 ≠ 1 ∨ counts.1 ≠ 1 then throw .HybridMbr
      else plan.readGpt device primary_sector backup_sector
    else do
      let read ← computed (plan.readMbr mbr)
      return (read, [])
  else return ({ plan with
    blank := allZero mbr && allZero primary_sector && allZero backup_sector }, [])

def Plan.read (device : BlockDevice) (scratch : Nat) : Action (Plan Digest) := do
  computed device.validate
  require (3 ≤ device.sectors && max_array_bytes * 2 ≤ scratch && scratch % sector_size = 0) .Geometry
  let mbr ← device.read 0 1
  let primary_sector ← device.read 1 1
  let backup_sector ← device.read (device.sectors - 1) 1
  let found ← (Plan.start device.sectors mbr).readTable device mbr primary_sector backup_sector
  computed found.1.validate
  let digest := sha256 (mbr ++ (primary_sector ++ (backup_sector ++ found.2)))
  let current ← found.1.source.hash sha256 device scratch
  require (digest = current) .Stale
  return { found.1 with source := { found.1.source with digest := some digest } }

end Reading

def entryBytes (entry : Entry) : Bytes :=
  if entry.present then
    entry.type_guid.toList ++ (entry.unique_guid.toList ++ (leBytes 8 entry.first ++
      (leBytes 8 (entry.first + entry.count - 1) ++ (leBytes 8 entry.attributes.toNat ++
        entry.name.toList.flatMap fun unit => leBytes 2 unit.toNat))))
  else zeros 128

/-- The bytes of a slot of the boot record. -/
def mbrSlotBytes (entry : Entry) : Bytes :=
  if entry.present then
    let original := entry.mbr_original.toList
    let chs (place : Nat) : Bytes := if allZero original then [0xfe, 0xff, 0xff] else slice original place 3
    [if entry.active then 0x80 else 0] ++ (chs 1 ++ ([entry.mbr_type] ++ (chs 5 ++
      (leBytes 4 entry.first ++ leBytes 4 entry.count))))
  else zeros 16

/-- The protective slot of the boot record. -/
def protectiveSlot (sectors : Nat) : Bytes :=
  [0, 0, 2, 0, 0xee, 0xff, 0xff, 0xff] ++
    (leBytes 4 1 ++ leBytes 4 (min (sectors - 1) (2 ^ 32 - 1)))

namespace Plan

variable {Digest : Type} (plan : Plan Digest)

/-- The slots of the boot record. -/
def slotBytes : Bytes :=
  if plan.kind = .mbr then (plan.entries.toList.take 4).flatMap mbrSlotBytes
  else protectiveSlot plan.sectors ++ zeros 48

/-- The boot record. -/
def mbrBytes : Bytes :=
  put plan.mbr_prefix.toList 440 (leBytes 4 plan.disk_id.toNat) ++ (plan.slotBytes ++ [0x55, 0xaa])

/-- The entries of the table, as whole sectors. -/
def arrayBytes : Bytes :=
  plan.used.flatMap entryBytes ++
    zeros (arraySectors plan.entry_count * 512 - plan.entry_count * 128)

def headerFields (current other entries checksum : Nat) : Bytes :=
  signature ++ (leBytes 4 revision_1_0 ++ (leBytes 4 92 ++ (leBytes 4 0 ++ (leBytes 4 0 ++
    (leBytes 8 current ++ (leBytes 8 other ++ (leBytes 8 plan.first_usable ++
      (leBytes 8 plan.last_usable ++ (plan.disk_guid.toList ++ (leBytes 8 entries ++
        (leBytes 4 plan.entry_count ++ (leBytes 4 128 ++ (leBytes 4 checksum ++
          zeros 420)))))))))))))

def header (current other entries checksum : Nat) : Bytes :=
  let fields := plan.headerFields current other entries checksum
  put fields 16 (leBytes 4 (crc (slice fields 0 92)))

/-- The checksum of the entries. -/
def checksum : Nat := crc (plan.arrayBytes.take (plan.entry_count * 128))

def primaryHeader : Bytes := plan.header 1 (plan.sectors - 1) plan.primary_array plan.checksum

def backupHeader : Bytes := plan.header (plan.sectors - 1) 1 plan.backup_array plan.checksum

section Commit

variable [DecidableEq Digest] (sha256 : Bytes → Digest)

/-- Check that the sectors of a span are zero. -/
def verifyErased (device : BlockDevice) : Nat → Nat → Action Unit
  | _, 0 => return ()
  | first, count + 1 => do
      device.verify first (zeros sector_size) sector_size
      verifyErased device (first + 1) count

/-- Fill spans with zeros. -/
def eraseSpans (device : BlockDevice) (work : Nat) : List Range → Action Unit
  | [] => return ()
  | span :: spans => do
      device.fill span.first span.count 0 work
      eraseSpans device work spans

/-- Check that spans are zero. -/
def verifySpans (device : BlockDevice) : List Range → Action Unit
  | [] => return ()
  | span :: spans => do
      verifyErased device span.first span.count
      verifySpans device spans

/-- Retire the copies that the plan was read from, the backup first. -/
def eraseSource (device : BlockDevice) (work : Nat) : Action Unit :=
  if plan.erase_source_gpt then do
    eraseSpans device work ([4, 2, 3, 1].filterMap fun index => plan.source.spans[index]?)
    device.flush
    verifySpans device plan.source.spans.tail
  else return ()

/-- Write one copy and read it back. -/
def writeCopy (device : BlockDevice) (array_lba : Nat) (array : Bytes) (header_lba : Nat)
    (header : Bytes) : Action Unit := do
  device.write array_lba array
  device.write header_lba header
  device.flush
  device.verify array_lba array max_array_bytes
  device.verify header_lba header max_array_bytes

/-- Write both copies, the backup first. -/
def writeCopies (device : BlockDevice) : Action Unit :=
  if plan.kind = .mbr then return ()
  else do
    writeCopy device plan.backup_array plan.arrayBytes (plan.sectors - 1) plan.backupHeader
    writeCopy device plan.primary_array plan.arrayBytes 1 plan.primaryHeader

/-- Commit a plan to the device that it was read from. -/
def commit (device : BlockDevice) (work : Nat) : Action Unit := do
  computed plan.validate
  computed device.requireExclusive
  require (device.sectors = plan.sectors && plan.kind ≠ .none && !plan.source.spans.isEmpty &&
    max_array_bytes * 2 ≤ work && work % sector_size = 0) .Geometry
  require (!plan.erase_source_gpt || (plan.kind = .mbr && plan.source.spans.length = 5)) .Geometry
  let current ← plan.source.hash sha256 device work
  require (plan.source.digest = some current) .Stale
  plan.eraseSource device work
  plan.writeCopies device
  device.write 0 plan.mbrBytes
  device.flush
  device.verify 0 plan.mbrBytes work

end Commit

end Plan

end R4OS.Gpt
