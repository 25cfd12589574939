import R4OS.Block.Device

/-!
# The format of a GUID partition table

Headers and entries as the parser accepts them, with the checksum of both.
-/

namespace R4OS.Gpt

open Block Text

/-- Bytes of a sector. -/
def logical_sector_size : Nat := 512

/-- Bytes of the fields of a header. -/
def minimum_header_size : Nat := 92

/-- Bytes of the fields of an entry. -/
def minimum_entry_size : Nat := 128

/-- Bytes that an entry may have. -/
def maximum_entry_size : Nat := logical_sector_size

/-- Entries that a table may have. -/
def maximum_entry_count : Nat := 4096

/-- The first bytes of a header. -/
def signature : Bytes := ascii "EFI PART"

/-- The revision of a header. -/
def revision_1_0 : Nat := 0x00010000

/-- A globally unique identifier. -/
abbrev Guid : Type := Vector UInt8 16

/-- The type of an EFI system partition. -/
def efi_system_guid : Guid :=
  #v[0x28, 0x73, 0x2A, 0xC1, 0x1F, 0xF8, 0xD2, 0x11,
    0xBA, 0x4B, 0x00, 0xA0, 0xC9, 0x3E, 0xC9, 0x3B]

/-- The type of a basic data partition. -/
def microsoft_basic_data_guid : Guid :=
  #v[0xA2, 0xA0, 0xD0, 0xEB, 0xE5, 0xB9, 0x33, 0x44,
    0x87, 0xC0, 0x68, 0xB6, 0xB7, 0x26, 0x99, 0xC7]

def allZero (bytes : Bytes) : Bool := bytes.all (· == 0)

/-- The identifier that stands for none. -/
def Guid.isZero (guid : Guid) : Bool := allZero guid.toList

/-- A checksum in progress. -/
structure Crc32 where
  state : UInt32 := 0xFFFFFFFF

/-- One bit of a checksum. -/
def Crc32.bit (state : UInt32) : UInt32 := (state >>> 1) ^^^ (0xEDB88320 &&& (0 - (state &&& 1)))

/-- One byte of a checksum. -/
def Crc32.byte (state : UInt32) (byte : UInt8) : UInt32 :=
  Crc32.bit^[8] (state ^^^ byte.toUInt32)

/-- Add bytes to a checksum. -/
def Crc32.update (crc : Crc32) (bytes : Bytes) : Crc32 := ⟨bytes.foldl Crc32.byte crc.state⟩

/-- The checksum as it is stored. -/
def Crc32.finish (crc : Crc32) : Nat := (~~~crc.state).toNat

/-- The checksum of bytes. -/
def crc (bytes : Bytes) : Nat := (Crc32.update {} bytes).finish

theorem Crc32.update_append (crc : Crc32) (front back : Bytes) :
    crc.update (front ++ back) = (crc.update front).update back := by
  simp [Crc32.update]

theorem crc_lt (bytes : Bytes) : crc bytes < 256 ^ 4 :=
  (~~~(Crc32.update {} bytes).state).toNat_lt

/-- The fields of a header. -/
structure Header where
  disk_guid : Guid
  current_lba : Nat
  backup_lba : Nat
  first_usable_lba : Nat
  last_usable_lba : Nat
  entries_lba : Nat
  entry_count : Nat
  entry_size : Nat
  entries_crc32 : Nat
  deriving DecidableEq

def Header.entryBytes (header : Header) : Nat := header.entry_count * header.entry_size

def Header.entrySectors (header : Header) : Nat :=
  (header.entryBytes + logical_sector_size - 1) / logical_sector_size

/-- The fields in a sector. -/
def Header.decode (sector : Bytes) : Header where
  disk_guid := fixed 16 sector 56
  current_lba := readLe 8 sector 24
  backup_lba := readLe 8 sector 32
  first_usable_lba := readLe 8 sector 40
  last_usable_lba := readLe 8 sector 48
  entries_lba := readLe 8 sector 72
  entry_count := readLe 4 sector 80
  entry_size := readLe 4 sector 84
  entries_crc32 := readLe 4 sector 88

/-- The checksum of a header, whose own field counts as zero. -/
def headerCrc (sector : Bytes) (header_size : Nat) : Nat :=
  ((((({} : Crc32).update (slice sector 0 16)).update [0, 0, 0, 0]).update
    (slice sector 20 (header_size - 20)))).finish

/-- Whether the entries lie on the right side of the usable range. -/
def checkPlacement (header : Header) (header_lba device_sector_count : Nat) : Except Fault Unit :=
  if header_lba = 1 then
    refuse (header.backup_lba ≠ device_sector_count - 1 ∨ header.entries_lba ≤ header_lba ∨
      header.first_usable_lba < header.entries_lba + header.entrySectors) .EntryArrayOutOfRange
  else if header_lba = device_sector_count - 1 then
    refuse (header.backup_lba ≠ 1 ∨ header.entries_lba ≤ header.last_usable_lba ∨
      header_lba < header.entries_lba + header.entrySectors) .EntryArrayOutOfRange
  else .error .WrongHeaderLba

def parseHeader (sector : Bytes) (header_lba device_sector_count : Nat) : Except Fault Header := do
  refuse (sector.length < logical_sector_size) .ShortSector
  refuse (slice sector 0 8 ≠ signature) .BadSignature
  refuse (readLe 4 sector 8 ≠ revision_1_0) .UnsupportedRevision
  let header_size := readLe 4 sector 12
  refuse (header_size < minimum_header_size ∨ logical_sector_size < header_size) .BadHeaderSize
  refuse (readLe 4 sector 20 ≠ 0) .NonzeroReserved
  refuse (headerCrc sector header_size ≠ readLe 4 sector 16) .BadHeaderCrc
  let header := Header.decode sector
  refuse (device_sector_count < 3 ∨ header.current_lba ≠ header_lba) .WrongHeaderLba
  refuse (device_sector_count ≤ header.backup_lba ∨ header.backup_lba = header.current_lba)
    .BadBackupLba
  refuse (header.last_usable_lba < header.first_usable_lba ∨
    device_sector_count ≤ header.last_usable_lba) .BadUsableRange
  refuse (header.entry_count = 0 ∨ maximum_entry_count < header.entry_count ∨
    header.entry_size < minimum_entry_size ∨ maximum_entry_size < header.entry_size ∨
    header.entry_size % minimum_entry_size ≠ 0) .UnsupportedEntryLayout
  refuse (header.entrySectors = 0 ∨ device_sector_count ≤ header.entries_lba ∨
    device_sector_count - header.entries_lba < header.entrySectors) .EntryArrayOutOfRange
  checkPlacement header header_lba device_sector_count
  return header

/-- Types that the boot loader tells apart. -/
inductive PartitionType
  | efi_system
  | microsoft_basic_data
  | other

/-- A partition as an entry describes it. -/
structure Partition where
  type_guid : Guid
  unique_guid : Guid
  name_utf16 : Vector UInt16 36
  partition_type : PartitionType
  first_lba : Nat
  last_lba : Nat
  attributes : Nat

def Partition.sectorCount (partition : Partition) : Nat :=
  partition.last_lba - partition.first_lba + 1

/-- The type of an identifier. -/
def classifyType (type_guid : Guid) : PartitionType :=
  if type_guid = efi_system_guid then .efi_system
  else if type_guid = microsoft_basic_data_guid then .microsoft_basic_data
  else .other

def nameUnits (raw : Bytes) : Vector UInt16 36 :=
  Vector.ofFn fun index => UInt16.ofNat (readLe 2 raw (56 + index * 2))

/-- Parse an entry, whose type is zero where there is no partition. -/
def parsePartition (raw : Bytes) (header : Header) : Except Fault (Option Partition) := do
  refuse (raw.length < header.entry_size ∨ raw.length < minimum_entry_size) .ShortEntry
  if allZero (slice raw 0 16) then return none
  else
    let first_lba := readLe 8 raw 32
    let last_lba := readLe 8 raw 40
    refuse (first_lba < header.first_usable_lba ∨ last_lba < first_lba ∨
      header.last_usable_lba < last_lba) .BadPartitionRange
    return some {
      type_guid := fixed 16 raw 0
      unique_guid := fixed 16 raw 16
      name_utf16 := nameUnits raw
      partition_type := classifyType (fixed 16 raw 0)
      first_lba
      last_lba
      attributes := readLe 8 raw 48 }

section Accepted

variable {sector : Bytes} {header : Header} {header_lba device_sector_count : Nat}

/-- Where an accepted header puts its entries. -/
structure Placed (header : Header) (header_lba device_sector_count : Nat) : Prop where
  primary : header_lba = 1 → header.backup_lba = device_sector_count - 1 ∧
    1 < header.entries_lba ∧ header.entries_lba + header.entrySectors ≤ header.first_usable_lba
  backup : header_lba ≠ 1 → header_lba = device_sector_count - 1 ∧ header.backup_lba = 1 ∧
    header.last_usable_lba < header.entries_lba ∧
    header.entries_lba + header.entrySectors ≤ header_lba

/-- What the parser checks of the fields. -/
structure Header.Sound (header : Header) (header_lba device_sector_count : Nat) : Prop where
  sectors : 3 ≤ device_sector_count
  current : header.current_lba = header_lba
  other : header.backup_lba < device_sector_count ∧ header.backup_lba ≠ header.current_lba
  usable : header.first_usable_lba ≤ header.last_usable_lba ∧
    header.last_usable_lba < device_sector_count
  count : 0 < header.entry_count ∧ header.entry_count ≤ maximum_entry_count
  size : minimum_entry_size ≤ header.entry_size ∧ header.entry_size ≤ maximum_entry_size ∧
    header.entry_size % minimum_entry_size = 0
  entries : 0 < header.entrySectors ∧
    header.entries_lba + header.entrySectors ≤ device_sector_count
  placed : Placed header header_lba device_sector_count

/-- What the parser checks of the bytes. -/
structure Framed (sector : Bytes) : Prop where
  length : logical_sector_size ≤ sector.length
  start : slice sector 0 8 = signature
  revision : readLe 4 sector 8 = revision_1_0
  header_size : minimum_header_size ≤ readLe 4 sector 12 ∧
    readLe 4 sector 12 ≤ logical_sector_size
  reserved : readLe 4 sector 20 = 0
  checksum : headerCrc sector (readLe 4 sector 12) = readLe 4 sector 16

theorem checkPlacement_eq_ok :
    checkPlacement header header_lba device_sector_count = .ok () ↔
      Placed header header_lba device_sector_count := by
  unfold checkPlacement
  split
  · next first =>
      subst first
      rw [refuse_eq_ok]
      constructor
      · intro fine
        exact ⟨fun _ => by omega, fun other => absurd rfl other⟩
      · intro placed
        have := placed.primary rfl
        omega
  · next not_first =>
      split
      · next last =>
          rw [refuse_eq_ok]
          constructor
          · intro fine
            exact ⟨fun first => absurd first not_first, fun _ => ⟨last, by omega⟩⟩
          · intro placed
            have := placed.backup not_first
            omega
      · next not_last =>
          constructor
          · rintro ⟨⟩
          · intro placed
            exact absurd (placed.backup not_first).1 not_last

/-- A header is parsed exactly when its bytes are framed and its fields are sound. -/
theorem parseHeader_eq_ok :
    parseHeader sector header_lba device_sector_count = .ok header ↔
      header = Header.decode sector ∧ Framed sector ∧
        header.Sound header_lba device_sector_count := by
  have placement (result : Header) :
      (checkPlacement result header_lba device_sector_count >>= fun _ => pure result) = .ok header ↔
        Placed result header_lba device_sector_count ∧ result = header := by
    rw [← checkPlacement_eq_ok]
    cases checkPlacement result header_lba device_sector_count <;>
      simp [bind, Except.bind, pure, Except.pure]
  simp only [parseHeader, refuse_bind_eq_ok, placement]
  constructor
  · rintro ⟨length, start, revision, header_size, reserved, checksum, current, other, usable, layout,
      entries, placed, rfl⟩
    refine ⟨rfl, ⟨by omega, not_not.mp start, by omega, by omega, by omega, by omega⟩,
      ⟨by omega, by omega, by omega, by omega, by omega, by omega, by omega, placed⟩⟩
  · rintro ⟨rfl, framed, sound⟩
    obtain ⟨length, start, revision, header_size, reserved, checksum⟩ := framed
    obtain ⟨sectors, current, other, usable, count, size, entries, placed⟩ := sound
    exact ⟨by omega, not_not.mpr start, by omega, by omega, by omega, by omega, by omega, by omega,
      by omega, by omega, by omega, placed, rfl⟩

end Accepted

end R4OS.Gpt
