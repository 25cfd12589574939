import Mathlib.Data.List.Forall2
import R4OS.Block.Fields
import R4OS.Crash.Fallible

/-!
# Block devices

Bounded input and output on a device of 512-byte sectors.  Transfers may be refused or fail, and a
failed write may have changed the sectors it was about; every attempted write is logged.
-/

namespace R4OS.Block

open Crash Text

/-- Bytes of one sector. -/
def sector_size : Nat := 512

def max_transfer_bytes : Nat := 128 * 1024

/-- Failures of the storage tools. -/
inductive Fault
  | Geometry
  | Bounds
  | ExclusiveRequired
  | ReadFailed
  | WriteFailed
  | FlushFailed
  | VerifyFailed
  | Cancelled
  | Stale
  | ShortSector
  | BadSignature
  | UnsupportedRevision
  | BadHeaderSize
  | NonzeroReserved
  | BadHeaderCrc
  | WrongHeaderLba
  | BadBackupLba
  | BadUsableRange
  | UnsupportedEntryLayout
  | EntryArrayOutOfRange
  | ShortEntry
  | BadPartitionRange
  | GptLayoutUnsupported
  | GptArrayCrc
  | GptCopiesDisagree
  | GptAlreadyHealthy
  | GptBothInvalid
  | ProtectiveMbr
  | HybridMbr
  | PartitionGuid
  | PartitionRange
  | PartitionCapacity
  | Overlap
  | DuplicateGuid
  | MbrCapacity
  | ActiveFlag
  | ExtendedMbrUnsupported
  | Alignment
  | NotFound
  | NotEmpty
  | NoSpace
  | AlreadyConverted
  | Capacity
  deriving DecidableEq

/-- The bytes of a device. -/
abbrev Disk : Type := Nat → UInt8

namespace Disk

/-- The bytes of consecutive sectors. -/
@[irreducible] def read (disk : Disk) (lba count : Nat) : Bytes :=
  (List.range' (sector_size * lba) (sector_size * count)).map disk

@[irreducible] def write (disk : Disk) (lba : Nat) (data : Bytes) : Disk := fun place =>
  if sector_size * lba ≤ place then data[place - sector_size * lba]?.getD (disk place)
  else disk place

/-- Two disks with the same bytes in consecutive sectors. -/
def SameOn (disk disk' : Disk) (lba count : Nat) : Prop :=
  ∀ place, sector_size * lba ≤ place → place < sector_size * (lba + count) → disk place = disk' place

/-- Two disks that differ in consecutive sectors at most. -/
def SameBeside (disk disk' : Disk) (lba count : Nat) : Prop :=
  ∀ place, place < sector_size * lba ∨ sector_size * (lba + count) ≤ place → disk place = disk' place

variable {disk disk' : Disk} {lba count other size : Nat} {data : Bytes}

@[simp] theorem read_length (disk : Disk) (lba count : Nat) :
    (disk.read lba count).length = sector_size * count := by
  simp [read]

theorem read_getElem? (disk : Disk) (lba count index : Nat) :
    (disk.read lba count)[index]? =
      if index < sector_size * count then some (disk (sector_size * lba + index)) else none := by
  rw [read, List.getElem?_map]
  split
  · next inside => rw [List.getElem?_range' inside, Nat.one_mul, Option.map_some]
  · next outside => rw [List.getElem?_eq_none (by simpa using outside), Option.map_none]

@[simp] theorem read_zero (disk : Disk) (lba : Nat) : disk.read lba 0 = [] :=
  List.length_eq_zero_iff.mp (read_length disk lba 0)

theorem read_add (disk : Disk) (lba count more : Nat) :
    disk.read lba (count + more) = disk.read lba count ++ disk.read (lba + count) more := by
  simp only [read]
  rw [← List.map_append, Nat.mul_add, Nat.mul_add, List.range'_append_1]

theorem SameOn.read_eq (same : SameOn disk disk' lba count) :
    disk.read lba count = disk'.read lba count := by
  apply List.ext_getElem?
  intro index
  rw [read_getElem?, read_getElem?]
  split
  · next inside =>
      rw [same _ (Nat.le_add_right _ _) (by rw [Nat.mul_add]; omega)]
  · rfl

theorem SameOn.refl (disk : Disk) (lba count : Nat) : SameOn disk disk lba count :=
  fun _ _ _ => rfl

theorem SameOn.trans {last : Disk} (same : SameOn disk disk' lba count)
    (next : SameOn disk' last lba count) : SameOn disk last lba count :=
  fun place low high => (same place low high).trans (next place low high)

/-- What differs in some sectors only is the same in the others. -/
theorem SameBeside.sameOn (same : SameBeside disk disk' other size)
    (apart : lba + count ≤ other ∨ other + size ≤ lba) : SameOn disk disk' lba count := by
  intro place low high
  apply same place
  rcases apart with before | behind
  · exact .inl (lt_of_lt_of_le high (Nat.mul_le_mul_left _ before))
  · exact .inr (le_trans (Nat.mul_le_mul_left _ behind) low)

theorem write_sameBeside (disk : Disk) (lba : Nat) (sized : data.length = sector_size * count) :
    SameBeside disk (disk.write lba data) lba count := by
  intro place outside
  rw [Nat.mul_add] at outside
  unfold write
  split
  · next behind => rw [List.getElem?_eq_none (by omega), Option.getD_none]
  · rfl

theorem write_read_other (sized : data.length = sector_size * size)
    (apart : lba + count ≤ other ∨ other + size ≤ lba) :
    (disk.write other data).read lba count = disk.read lba count :=
  ((write_sameBeside disk other sized).sameOn apart).read_eq.symm

theorem write_read (disk : Disk) (lba : Nat) (sized : data.length = sector_size * count) :
    (disk.write lba data).read lba count = data := by
  apply List.ext_getElem?
  intro index
  rw [read_getElem?]
  split
  · next inside =>
      have within : index < data.length := by omega
      rw [write, if_pos (Nat.le_add_right _ _), Nat.add_sub_cancel_left,
        List.getElem?_eq_getElem within, Option.getD_some]
  · next outside => rw [List.getElem?_eq_none (by omega)]

end Disk

/-- The calls behind a device. -/
inductive BlockCall
  | checkpoint
  | read (lba count : Nat)
  | write (lba : Nat) (data : Bytes)
  | flush

/-- What a call answers. -/
abbrev BlockCall.Value : BlockCall → Type
  | .read _ _ => Bytes
  | .checkpoint | .write _ _ | .flush => Unit

/-- Programs over a device. -/
abbrev Action (Result : Type) : Type := Fallible Fault BlockCall.Value Result

def block (operation : BlockCall) : Action operation.Value := Fallible.call operation

/-- The bytes of the device and the first sector and length of every attempted write. -/
structure BlockWorld where
  disk : Disk
  written : List (Nat × Nat)

/-- What the calls answer and do, where `tears` says what a failed or cut write leaves behind. -/
def blockDevice (tears : Disk → Nat → Bytes → Disk → Prop) :
    Device (Reply Fault BlockCall.Value) BlockWorld
  | .checkpoint, before, reply, after =>
    after = before ∧ (reply = .ok () ∨ reply = .error .Cancelled)
  | .read lba count, before, reply, after =>
    after = before ∧ (reply = .ok (before.disk.read lba count) ∨ reply = .error .ReadFailed)
  | .write lba data, before, reply, after =>
    after.written = before.written ++ [(lba, data.length / sector_size)] ∧
      (reply = .ok () ∧ after.disk = before.disk.write lba data ∨
        reply = .error .WriteFailed ∧ tears before.disk lba data after.disk)
  | .flush, before, reply, after =>
    after = before ∧ (reply = .ok () ∨ reply = .error .FlushFailed)

/-- A device that answers every call. -/
def idealDisk : (operation : BlockCall) → BlockWorld →
    Reply Fault BlockCall.Value operation × BlockWorld
  | .checkpoint, world | .flush, world => (.ok (), world)
  | .read lba count, world => (.ok (world.disk.read lba count), world)
  | .write lba data, world =>
    (.ok (), ⟨world.disk.write lba data, world.written ++ [(lba, data.length / sector_size)]⟩)

theorem idealDisk_device (tears : Disk → Nat → Bytes → Disk → Prop) (operation : BlockCall)
    (before : BlockWorld) :
    blockDevice tears operation before (idealDisk operation before).1
      (idealDisk operation before).2 := by
  cases operation with
  | checkpoint | read lba count => exact ⟨rfl, .inl rfl⟩
  | write lba data => exact ⟨rfl, .inl ⟨rfl, rfl⟩⟩
  | flush => exact ⟨rfl, .inl rfl⟩

/-- A device as its user sees it. -/
structure BlockDevice where
  sectors : Nat
  sector_bytes : Nat := sector_size
  exclusive : Bool := false

def refuse (condition : Prop) [Decidable condition] (fault : Fault) : Except Fault Unit :=
  if condition then .error fault else .ok ()

@[simp] theorem refuse_eq_ok {condition : Prop} [Decidable condition] {fault : Fault} {value : Unit} :
    refuse condition fault = .ok value ↔ ¬condition := by
  unfold refuse
  split <;> simp_all

@[simp] theorem refuse_bind_eq_ok {condition : Prop} [Decidable condition] {fault : Fault}
    {Result : Type} {rest : Unit → Except Fault Result} {result : Result} :
    refuse condition fault >>= rest = .ok result ↔ ¬condition ∧ rest () = .ok result := by
  unfold refuse
  split <;> simp_all [bind, Except.bind]

section Checks

variable {Item First Second : Type}

theorem ok_bind (value : First) (rest : First → Except Fault Second) :
    (Except.ok value >>= rest) = rest value := rfl

theorem bind_eq_ok {program : Except Fault First} {rest : First → Except Fault Second}
    {result : Second} :
    program >>= rest = .ok result ↔ ∃ value, program = .ok value ∧ rest value = .ok result := by
  cases program <;> simp [bind, Except.bind]

theorem check_bind_eq_ok {check : Except Fault Unit} {rest : Unit → Except Fault First}
    {value : First} : check >>= rest = .ok value ↔ check = .ok () ∧ rest () = .ok value := by
  cases check <;> simp [bind, Except.bind]

theorem forM_eq_ok {check : Item → Except Fault Unit} {items : List Item} :
    items.forM check = .ok () ↔ ∀ item ∈ items, check item = .ok () := by
  induction items with
  | nil => simp [pure, Except.pure]
  | cons item items induction =>
    have unfolded : (item :: items).forM check = check item >>= fun _ => items.forM check := rfl
    rw [unfolded, check_bind_eq_ok, List.forall_mem_cons, induction]

theorem mapM_eq_ok {step : Item → Except Fault First} {items : List Item} {results : List First} :
    items.mapM step = .ok results ↔
      List.Forall₂ (fun item result => step item = .ok result) items results := by
  induction items generalizing results with
  | nil =>
    rw [List.mapM_nil, List.forall₂_nil_left_iff]
    exact ⟨fun same => (Except.ok.inj same).symm, fun same => congrArg _ same.symm⟩
  | cons item items induction =>
    rw [List.mapM_cons, bind_eq_ok, List.forall₂_cons_left_iff]
    constructor
    · rintro ⟨result, first, joined⟩
      obtain ⟨rest, others, same⟩ := bind_eq_ok.mp joined
      exact ⟨result, rest, first, induction.mp others, (Except.ok.inj same).symm⟩
    · rintro ⟨result, rest, first, others, rfl⟩
      exact ⟨result, first, bind_eq_ok.mpr ⟨rest, induction.mpr others, rfl⟩⟩

end Checks

namespace BlockDevice

/-- Whether the geometry is supported. -/
def validate (device : BlockDevice) : Except Fault Unit :=
  refuse (device.sector_bytes ≠ sector_size ∨ device.sectors = 0 ∨
    (2 ^ 64 - 1) / sector_size < device.sectors) .Geometry

/-- Whether the device may be written. -/
def requireExclusive (device : BlockDevice) : Except Fault Unit := do
  device.validate
  refuse (device.exclusive = false) .ExclusiveRequired

/-- Whether sectors are on the device. -/
def checkRange (device : BlockDevice) (lba count : Nat) : Except Fault Unit := do
  device.validate
  refuse (count = 0 ∨ device.sectors ≤ lba ∨ device.sectors - lba < count) .Bounds

def transfer_sectors : Nat := max_transfer_bytes / sector_size

def readTransfers : Nat → Nat → Nat → Action Bytes
  | 0, _, _ => return []
  | rounds + 1, lba, count =>
    if count = 0 then return []
    else do
      block .checkpoint
      let bytes ← block (.read lba (min count transfer_sectors))
      let rest ← readTransfers rounds (lba + min count transfer_sectors)
        (count - min count transfer_sectors)
      return bytes ++ rest

/-- Read sectors. -/
def read (device : BlockDevice) (lba count : Nat) : Action Bytes := do
  require (count ≠ 0) .Bounds
  computed (device.checkRange lba count)
  readTransfers count lba count

def writeTransfers : Nat → Nat → Bytes → Action Unit
  | 0, _, _ => return ()
  | rounds + 1, lba, data =>
    if data = [] then return ()
    else do
      block .checkpoint
      block (.write lba (data.take max_transfer_bytes))
      writeTransfers rounds (lba + (data.take max_transfer_bytes).length / sector_size)
        (data.drop max_transfer_bytes)

/-- Write sectors. -/
def write (device : BlockDevice) (lba : Nat) (data : Bytes) : Action Unit := do
  computed device.requireExclusive
  require (data.length ≠ 0 && data.length % sector_size = 0) .Bounds
  computed (device.checkRange lba (data.length / sector_size))
  writeTransfers data.length lba data

/-- Make the written sectors durable. -/
def flush (device : BlockDevice) : Action Unit := do
  computed device.requireExclusive
  block .flush

/-- Compare sectors with what they should hold, a buffer of sectors at a time. -/
def verifyRounds (device : BlockDevice) (scratch : Nat) : Nat → Nat → Bytes → Action Unit
  | 0, _, _ => return ()
  | rounds + 1, lba, expected =>
    if expected = [] then return ()
    else do
      let found ← device.read lba ((expected.take scratch).length / sector_size)
      require (found == expected.take scratch) .VerifyFailed
      device.verifyRounds scratch rounds (lba + (expected.take scratch).length / sector_size)
        (expected.drop scratch)

/-- Whether sectors hold what they should. -/
def verify (device : BlockDevice) (lba : Nat) (expected : Bytes) (scratch : Nat) : Action Unit := do
  require (sector_size ≤ scratch && scratch % sector_size = 0 && expected.length ≠ 0 &&
    expected.length % sector_size = 0) .Bounds
  computed (device.checkRange lba (expected.length / sector_size))
  device.verifyRounds scratch expected.length lba expected

/-- Fill sectors with one byte, a buffer of sectors at a time. -/
def fillRounds (device : BlockDevice) (value : UInt8) (scratch : Nat) : Nat → Nat → Nat → Action Unit
  | 0, _, _ => return ()
  | rounds + 1, lba, count =>
    if count = 0 then return ()
    else do
      let sectors := min count (scratch / sector_size)
      device.write lba (List.replicate (sectors * sector_size) value)
      device.fillRounds value scratch rounds (lba + sectors) (count - sectors)

/-- Fill sectors with one byte. -/
def fill (device : BlockDevice) (lba count : Nat) (value : UInt8) (scratch : Nat) : Action Unit := do
  computed device.requireExclusive
  computed (device.checkRange lba count)
  require (sector_size ≤ scratch && scratch % sector_size = 0) .Bounds
  device.fillRounds value scratch count lba count

end BlockDevice

end R4OS.Block
