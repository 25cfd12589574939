import R4OS.Crash.Program
import R4OS.Text.Bytes
import Mathlib.Data.Fin.VecNotation
import Mathlib.Logic.Function.Basic

/-!
# Journals in two slots

The newest valid journal is looked up in two slot files, and the next one is written to the other
slot and read back.  The transaction journal and the restart batch use the same protocol with
different formats, so that the protocol is written once over a format.
-/

namespace R4OS.Update

open Crash Text

/-- Slots are numbered by `Fin 2`, in every module through this instance. -/
instance twoSlots : NeZero (2 : Nat) := ⟨by decide⟩

/-- Directories that the store keeps present. -/
inductive UpdateDirectory
  | update_root
  | default_inbox
  | staged_root

/-- Paths that the store asks about. -/
inductive StorePath
  | directory (directory : UpdateDirectory)
  | slot (slot : Fin 2)

/-- The completion code of a lookup and the information it fills in. -/
structure FileInfo where
  rc : Int
  file_exists : Bool
  is_dir : Bool
  size : Nat

/-- A lookup that found a file or a directory. -/
def FileInfo.found (info : FileInfo) : Prop := 0 < info.rc ∧ info.file_exists = true

instance (info : FileInfo) : Decidable info.found := inferInstanceAs (Decidable (_ ∧ _))

/-- System calls of the store. -/
inductive SlotCall
  | dirCreate (directory : UpdateDirectory)
  | fileInfoRaw (path : StorePath)
  | fileReadAt (slot : Fin 2) (offset length : Nat)
  | fileWrite (slot : Fin 2) (data : Bytes)
  | sleepTicks

/-- Answers of the system calls.  A read answers the bytes it delivered, none of them when it
failed. -/
abbrev SlotCall.Answer : SlotCall → Type
  | .dirCreate _ => Int
  | .fileInfoRaw _ => FileInfo
  | .fileReadAt _ _ _ => Bytes
  | .fileWrite _ _ => Int
  | .sleepTicks => Unit

/-- Programs over the system calls of the store. -/
abbrev SlotProgram := Program SlotCall.Answer

/-- One system call. -/
def SlotCall.perform (call : SlotCall) : SlotProgram call.Answer := Program.perform call

def transient_read_attempt_limit : Nat := 3

/-- What a lookup finds under a path. -/
inductive FileLookup
  | found (is_dir : Bool) (size : Nat)
  | not_found
  | io

/-- Look a path up, with at most the given number of attempts. -/
def fileInfoStatus (path : StorePath) : (attempts : Nat) → SlotProgram FileLookup
  | 0 => return .io
  | attempts + 1 => do
      let info ← SlotCall.perform (.fileInfoRaw path)
      if info.found then return .found info.is_dir info.size
      else if attempts = 0 then return if info.rc < 0 then .io else .not_found
      else do
        let _ ← SlotCall.perform .sleepTicks
        fileInfoStatus path attempts

/-- Make sure that one directory exists. -/
def ensureDirectory (directory : UpdateDirectory) : SlotProgram Bool := do
  let created ← SlotCall.perform (.dirCreate directory)
  if created < 0 then return false
  else
    match ← fileInfoStatus (.directory directory) transient_read_attempt_limit with
    | .found is_dir _ => return is_dir
    | .not_found | .io => return false

/-- Make sure that the directories of the update tree exist. -/
def ensureUpdateDirectories : SlotProgram Bool := do
  if ← ensureDirectory .update_root then
    if ← ensureDirectory .default_inbox then ensureDirectory .staged_root
    else return false
  else return false

/-- Read until some bytes arrive, with at most the given number of attempts. -/
def readChunk (slot : Fin 2) (offset length : Nat) : (attempts : Nat) → SlotProgram (Option Bytes)
  | 0 => return none
  | attempts + 1 => do
      let chunk ← SlotCall.perform (.fileReadAt slot offset length)
      if chunk ≠ [] ∧ chunk.length ≤ length then return some chunk
      else if attempts = 0 then return none
      else do
        let _ ← SlotCall.perform .sleepTicks
        readChunk slot offset length attempts

/-- Collect the rest of a range.  Every round adds at least one byte. -/
def readRounds (slot : Fin 2) (length : Nat) :
    (rounds : Nat) → (completed : Bytes) → SlotProgram (Option Bytes)
  | 0, completed => return if length ≤ completed.length then some completed else none
  | rounds + 1, completed =>
    if length ≤ completed.length then return some completed
    else if 2 ^ 32 ≤ completed.length then return none
    else do
      match ← readChunk slot completed.length (min (length - completed.length) (2 ^ 31 - 1))
          transient_read_attempt_limit with
      | none => return none
      | some chunk => readRounds slot length rounds (completed ++ chunk)

def readExactAt (slot : Fin 2) (length : Nat) : SlotProgram (Option Bytes) :=
  readRounds slot length length []

/-- Which slot holds the newest valid journal. -/
inductive SlotSelection
  | selected (slot : Fin 2)
  | not_found
  | invalid

/-- What the store has to know about one kind of journal. -/
structure JournalFormat (Journal : Type) where
  journal_max : Nat
  serializeJournal : Journal → (capacity : Nat) → Option Bytes
  parseJournalInto : Bytes → (slot : Nat) → Option Journal
  selectNewestSlot : (present valid : Fin 2 → Bool) → (generation : Fin 2 → UInt64) → SlotSelection
  slot : Journal → Nat
  journal_generation : Journal → UInt64
  /-- Write slot and generation into a journal and mark it valid. -/
  stamp : Journal → (slot : Nat) → (journal_generation : UInt64) → Journal
  /-- Whether a journal that was read back is the one that was written. -/
  confirms : (readback written : Journal) → Bool

/-- The answer of a lookup for the newest valid journal. -/
inductive JournalLookup (Journal : Type)
  | found (journal : Journal)
  | not_found
  | io

/-- What was read from one slot. -/
structure SlotScan (Journal : Type) where
  present : Bool := false
  data : Bytes := []
  journal : Option Journal := none

section Protocol

variable {Journal : Type} (format : JournalFormat Journal)

def SlotScan.generation (scan : SlotScan Journal) : UInt64 :=
  (scan.journal.map format.journal_generation).getD 0

/-- Choose among two scanned slots and parse the chosen one again. -/
def newestScanned (scans : Fin 2 → SlotScan Journal) : JournalLookup Journal :=
  match format.selectNewestSlot (fun slot => (scans slot).present)
      (fun slot => (scans slot).journal.isSome) (fun slot => (scans slot).generation format) with
  | .selected slot =>
    match format.parseJournalInto (scans slot).data slot with
    | some journal => .found journal
    | none => .io
  | .not_found => .not_found
  | .invalid => .io

/-- Read and parse one slot; `none` when the slot cannot be classified. -/
def scanSlot (slot : Fin 2) : SlotProgram (Option (SlotScan Journal)) := do
  match ← fileInfoStatus (.slot slot) transient_read_attempt_limit with
  | .not_found => return some {}
  | .io => return none
  | .found is_dir size =>
    if is_dir ∨ size = 0 ∨ format.journal_max < size then return some { present := true }
    else
      match ← readExactAt slot size with
      | none => return none
      | some data =>
        return some { present := true, data, journal := format.parseJournalInto data slot }

def readNewestValid : SlotProgram (JournalLookup Journal) := do
  match ← scanSlot format 0 with
  | none => return .io
  | some first =>
    match ← scanSlot format 1 with
    | none => return .io
    | some second => return newestScanned format ![first, second]

/-- Write a stamped journal to one slot and read it back.  The result says whether it is durable,
and a journal that is not keeps its former stamp. -/
def writeSlot (journal : Journal) (slot : Fin 2) (next_generation : UInt64) :
    SlotProgram (Bool × Journal) :=
  let stamped := format.stamp journal slot next_generation
  match format.serializeJournal stamped format.journal_max with
  | none => return (false, journal)
  | some encoded => do
      let _ ← SlotCall.perform (.fileWrite slot encoded)
      match ← readExactAt slot encoded.length with
      | none => return (false, journal)
      | some readback =>
        if readback ≠ encoded then return (false, journal)
        else
          match format.parseJournalInto readback slot with
          | none => return (false, journal)
          | some verified =>
            if format.confirms verified stamped then return (true, stamped)
            else return (false, journal)

def inactiveSlot (newest : Journal) : Fin 2 := Fin.ofNat 2 (1 - format.slot newest)

/-- Write the next journal to the slot that does not hold the newest one. -/
def writeInactive (journal : Journal) : SlotProgram (Bool × Journal) := do
  if ← ensureUpdateDirectories then
    match ← readNewestValid format with
    | .io => return (false, journal)
    | .not_found => writeSlot format journal 0 1
    | .found newest =>
      if format.journal_generation newest = UInt64.ofNat (2 ^ 64 - 1) then return (false, journal)
      else
        writeSlot format journal (inactiveSlot format newest)
          (format.journal_generation newest + 1)
  else return (false, journal)

end Protocol

/-- What stands under the path of a slot. -/
inductive SlotFile
  | absent
  | file (data : Bytes)
  | directory
  deriving DecidableEq

/-- The two slot files. -/
abbrev SlotDisk := Fin 2 → SlotFile

/-- A store without slot files. -/
def SlotDisk.empty : SlotDisk := fun _ => .absent

/-- Replace the content of a slot file.  A directory stays what it is. -/
def SlotDisk.write (disk : SlotDisk) (slot : Fin 2) (data : Bytes) : SlotDisk :=
  if disk slot = .directory then disk else Function.update disk slot (.file data)

/-- Information that describes what stands under a path. -/
def SlotFile.describes : SlotFile → FileInfo → Prop
  | .absent, info => ¬info.found
  | .file data, info => info.found ∧ info.is_dir = false ∧ info.size = data.length
  | .directory, info => info.found ∧ info.is_dir = true

/-- The bytes of a file; nothing can be read elsewhere. -/
def SlotFile.content : SlotFile → Bytes
  | .file data => data
  | .absent | .directory => []

/-- The bytes that a read may deliver. -/
def SlotFile.window (file : SlotFile) (offset length : Nat) : Bytes :=
  (file.content.drop offset).take length

section Classified

variable {Journal : Type} (format : JournalFormat Journal)

/-- What a complete read of a slot finds. -/
def SlotFile.scan (slot : Fin 2) : SlotFile → SlotScan Journal
  | .absent => {}
  | .directory => { present := true }
  | .file data =>
    if data = [] ∨ format.journal_max < data.length then { present := true }
    else { present := true, data, journal := format.parseJournalInto data slot }

/-- The newest valid journal of a disk, as a lookup without failures answers it. -/
def newest (disk : SlotDisk) : JournalLookup Journal :=
  newestScanned format fun slot => (disk slot).scan format slot

/-- Where the next journal goes and which generation it gets; `none` when the store refuses. -/
def nextStamp (disk : SlotDisk) : Option (Fin 2 × UInt64) :=
  match newest format disk with
  | .io => none
  | .not_found => some (0, 1)
  | .found journal =>
    if format.journal_generation journal = UInt64.ofNat (2 ^ 64 - 1) then none
    else some (inactiveSlot format journal, format.journal_generation journal + 1)

def Holds (disk : SlotDisk) (slot : Fin 2) (journal : Journal) : Prop :=
  ∃ data, disk slot = .file data ∧ format.parseJournalInto data slot = some journal

/-- What the store relies on in a format. -/
structure LawfulFormat : Prop where
  small : format.journal_max ≤ 2 ^ 32
  parse_slot : ∀ data (slot : Fin 2) journal,
    format.parseJournalInto data slot = some journal → format.slot journal = slot
  parse_size : ∀ data (slot : Fin 2) journal,
    format.parseJournalInto data slot = some journal →
      data ≠ [] ∧ data.length ≤ format.journal_max
  serialize_size : ∀ journal capacity encoded,
    format.serializeJournal journal capacity = some encoded →
      encoded ≠ [] ∧ encoded.length ≤ capacity
  reads_generation : ∀ journal (slot : Fin 2) generation capacity encoded readback,
    format.serializeJournal (format.stamp journal slot generation) capacity = some encoded →
      format.parseJournalInto encoded slot = some readback →
        format.journal_generation readback = generation
  select_not_found : ∀ present valid generation, (∀ slot, valid slot = true → present slot = true) →
    (format.selectNewestSlot present valid generation = .not_found ↔ ∀ slot, present slot = false)
  select_selected : ∀ present valid generation slot,
    (∀ slot, valid slot = true → present slot = true) →
      format.selectNewestSlot present valid generation = .selected slot →
        valid slot = true ∧ ∀ other, valid other = true → generation other ≤ generation slot
  select_newest : ∀ present valid generation slot,
    (∀ slot, valid slot = true → present slot = true) → valid slot = true →
      (∀ other, other ≠ slot → valid other = true → generation other < generation slot) →
        format.selectNewestSlot present valid generation = .selected slot

end Classified

/-- The file system under the store.  Calls may fail unless it is `working`, but lookups and reads
never answer falsely.  A write that is cut or fails keeps the old bytes, completes, or leaves bytes
that `damage` admits. -/
def slotDevice (working : Bool) (damage : SlotDisk → Fin 2 → (written left : Bytes) → Prop) :
    Device SlotCall.Answer SlotDisk
  | .dirCreate _, before, (created : Int), after =>
    after = before ∧ (working = true → 0 ≤ created)
  | .fileInfoRaw (.directory _), before, (info : FileInfo), after =>
    after = before ∧ (working = true → info.found ∧ info.is_dir = true)
  | .fileInfoRaw (.slot slot), before, (info : FileInfo), after =>
    after = before ∧
      (0 ≤ info.rc ∧ (before slot).describes info ∨ info.rc < 0 ∧ working = false)
  | .fileReadAt slot offset length, before, (chunk : Bytes), after =>
    after = before ∧ chunk <+: (before slot).window offset length ∧
      (working = true → chunk = [] → (before slot).window offset length = [])
  | .fileWrite slot data, before, _, after =>
    after = before.write slot data ∨
      working = false ∧
        (after = before ∨ ∃ left, damage before slot data left ∧ after = before.write slot left)
  | .sleepTicks, before, _, after => after = before

end R4OS.Update
