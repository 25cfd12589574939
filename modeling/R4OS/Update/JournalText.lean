import R4OS.Update.Journal

/-!
# The text of the transaction journal

The canonical serializer and the parser of the journal format.  A journal is a checksummed list of
lines: one line for each header field, component and payload.
-/

namespace R4OS.Update

open Text

def checksum_seed : UInt32 := 2166136261

/-- Extend a checksum over more bytes. -/
def checksumUpdate (seed : UInt32) (data : Bytes) : UInt32 :=
  data.foldl (fun out byte => (out ^^^ byte.toUInt32) * 16777619) seed

/-- The body checksum. -/
def checksum (data : Bytes) : UInt32 := checksumUpdate checksum_seed data

/-- The digit of a marker. -/
def boolDigit (value : Bool) : Bytes := if value then ascii "1" else ascii "0"

/-- The text of a switch. -/
def yesNo (value : Bool) : Bytes := if value then ascii "yes" else ascii "no"

/-- The header lines in order. -/
def headerFields (journal : TransactionJournal) : List (Bytes × Bytes) :=
  [ (ascii "R4U_JOURNAL=", ascii "5"),
    (ascii "TRANSACTION_GENERATION=", decimal journal.transaction_generation.toNat),
    (ascii "JOURNAL_GENERATION=", decimal journal.journal_generation.toNat),
    (ascii "PHASE=", phaseName journal.phase),
    (ascii "PACKAGE_DIGEST=", decimal journal.package_digest.toNat),
    (ascii "PACKAGE_LENGTH=", decimal journal.package_length.toNat),
    (ascii "MANIFEST_CHECKSUM=", decimal journal.manifest_checksum.toNat),
    (ascii "COMPONENT_DIGEST=", decimal journal.component_digest.toNat),
    (ascii "COMPONENTS=", decimal journal.component_count),
    (ascii "COMPONENT_BINDING=", if journal.components_bound then ascii "bound" else ascii "legacy"),
    (ascii "PRIORITY=", if journal.foundation then ascii "foundation" else ascii "normal"),
    (ascii "PACKAGE_VERSION=", journal.package_version.bytes),
    (ascii "SOURCE_RELEASE=", journal.source_version.bytes),
    (ascii "RELEASE=", journal.target_version.bytes),
    (ascii "SOURCE=", journal.sourceText),
    (ascii "PACKAGE_PAYLOADS=", decimal journal.package_payload_count),
    (ascii "PAYLOADS=", decimal journal.payload_count),
    (ascii "COMMITTED=", decimal journal.committed_count),
    (ascii "ROLLED_BACK=", decimal journal.rollback_count),
    (ascii "REBOOT=", yesNo journal.reboot),
    (ascii "BATCH=", yesNo journal.batch) ]

def componentFields (indexed : JournalComponent × Nat) : List (Bytes × Bytes) :=
  [ (ascii "index=", decimal indexed.2),
    (ascii "payload=", decimal indexed.1.payload_index.toNat),
    (ascii "kind=", indexed.1.kind.text),
    (ascii "name=", indexed.1.name.bytes),
    (ascii "target=", indexed.1.target.bytes),
    (ascii "version=", indexed.1.version.bytes) ]

def payloadFields (indexed : JournalPayload × Nat) : List (Bytes × Bytes) :=
  [ (ascii "index=", decimal indexed.2),
    (ascii "target=", indexed.1.targetText),
    (ascii "stage=", indexed.1.stageText),
    (ascii "backup=", indexed.1.backupText),
    (ascii "previous_backup=", indexed.1.previousBackupText),
    (ascii "previous_known=", boolDigit indexed.1.previous_backup_known),
    (ascii "previous_size=", decimal indexed.1.previous_backup_size.toNat),
    (ascii "previous_checksum=", decimal indexed.1.previous_backup_checksum.toNat),
    (ascii "size=", decimal indexed.1.size.toNat),
    (ascii "checksum=", decimal indexed.1.checksum.toNat),
    (ascii "existed=", boolDigit indexed.1.target_existed),
    (ascii "old_known=", boolDigit indexed.1.old_known),
    (ascii "old_size=", decimal indexed.1.old_size.toNat),
    (ascii "old_checksum=", decimal indexed.1.old_checksum.toNat),
    (ascii "required=", boolDigit indexed.1.replace_required),
    (ascii "committed=", boolDigit indexed.1.committed),
    (ascii "rolled_back=", boolDigit indexed.1.rolled_back) ]

def componentLine (indexed : JournalComponent × Nat) : Bytes :=
  fieldLine (ascii "COMPONENT") (componentFields indexed)

def payloadLine (indexed : JournalPayload × Nat) : Bytes :=
  fieldLine (ascii "PAYLOAD") (payloadFields indexed)

/-- The component lines, which a legacy binding leaves out. -/
def componentLines (journal : TransactionJournal) : List Bytes :=
  if journal.components_bound then journal.components.zipIdx.map componentLine else []

def payloadLines (journal : TransactionJournal) : List Bytes :=
  journal.payloads.zipIdx.map payloadLine

/-- All lines before the checksum. -/
def bodyLines (journal : TransactionJournal) : List Bytes :=
  (headerFields journal).map keyed ++ componentLines journal ++ payloadLines journal

/-- The bytes that the checksum covers. -/
def journalBody (journal : TransactionJournal) : Bytes := unlines (bodyLines journal)

def checksumLine (body : Bytes) : Bytes := ascii "CHECKSUM=" ++ decimal (checksum body).toNat

def journalText (journal : TransactionJournal) : Bytes :=
  journalBody journal ++ (checksumLine (journalBody journal) ++ [newline])

/-- Serialize a valid journal into a buffer of the given capacity. -/
def serializeJournal (journal : TransactionJournal) (capacity : Nat) : Option Bytes :=
  if journalValid journal ∧ (journalText journal).length ≤ capacity then some (journalText journal)
  else none

/-- Read a 64-bit number, blanks around it allowed. -/
def parseU64 (value : Bytes) : Option UInt64 :=
  (parseDecimal (2 ^ 64 - 1) (trim value)).map UInt64.ofNat

/-- Read a 32-bit number, blanks around it allowed. -/
def parseU32 (value : Bytes) : Option UInt32 :=
  match parseDecimal (2 ^ 64 - 1) (trim value) with
  | some parsed => if parsed < 2 ^ 32 then some (UInt32.ofNat parsed) else none
  | none => none

/-- Read a marker digit. -/
def parseBool01 (value : Bytes) : Option Bool :=
  if value = ascii "0" then some false else if value = ascii "1" then some true else none

/-- Read one of two keywords in any ASCII case. -/
def parseKeyword (yes no value : Bytes) : Option Bool :=
  if equalsIgnoreCase value yes then some true
  else if equalsIgnoreCase value no then some false
  else none

/-- Read a switch. -/
def parseYesNo (value : Bytes) : Option Bool := parseKeyword (ascii "yes") (ascii "no") value

/-- Read a phase name in any ASCII case. -/
def parsePhase (value : Bytes) : Option JournalPhase :=
  JournalPhase.all.find? fun phase => equalsIgnoreCase value (phaseName phase)

/-- What follows a key in the only line that starts with it. -/
def journalField (data key : Bytes) : Option Bytes := fieldValue ((lines data).map trim) key

/-- A field that must occur exactly once. -/
def requiredField (line key : Bytes) : Option Bytes :=
  if fieldOccurrences (fieldParts line) key ≠ 1 then none else fieldValue (fieldParts line) key

/-- A field that may occur once. -/
def optionalField (line key : Bytes) : Option Bytes :=
  if 1 < fieldOccurrences (fieldParts line) key then none else fieldValue (fieldParts line) key

def headerKeys : List Bytes :=
  [ ascii "R4U_JOURNAL=", ascii "TRANSACTION_GENERATION=", ascii "JOURNAL_GENERATION=",
    ascii "PHASE=", ascii "PACKAGE_DIGEST=", ascii "PACKAGE_LENGTH=", ascii "SOURCE=",
    ascii "PAYLOADS=", ascii "COMMITTED=", ascii "ROLLED_BACK=", ascii "REBOOT=",
    ascii "MANIFEST_CHECKSUM=", ascii "COMPONENT_DIGEST=", ascii "COMPONENTS=",
    ascii "COMPONENT_BINDING=", ascii "PRIORITY=", ascii "PACKAGE_VERSION=",
    ascii "SOURCE_RELEASE=", ascii "RELEASE=", ascii "PACKAGE_PAYLOADS=", ascii "BATCH=" ]

def payloadKeys : List Bytes :=
  [ ascii "index=", ascii "target=", ascii "stage=", ascii "backup=", ascii "previous_backup=",
    ascii "previous_known=", ascii "previous_size=", ascii "previous_checksum=", ascii "size=",
    ascii "checksum=", ascii "existed=", ascii "old_known=", ascii "old_size=",
    ascii "old_checksum=", ascii "required=", ascii "committed=", ascii "rolled_back=" ]

def componentKeys : List Bytes :=
  [ ascii "index=", ascii "payload=", ascii "kind=", ascii "name=", ascii "target=",
    ascii "version=" ]

/-- Whether every line is of a known kind. -/
def journalLinesKnown (texts : List Bytes) : Bool :=
  texts.all fun line =>
    line != [] && (startsWith line (ascii "PAYLOAD;") || startsWith line (ascii "COMPONENT;") ||
      headerKeys.any fun key => startsWith line key)

def fieldsKnown (tag : Bytes) (keys : List Bytes) (line : Bytes) : Bool :=
  match fieldParts line with
  | [] => false
  | first :: fields =>
    first == tag && fields.all fun field => keys.any fun key => startsWith field key

/-- Known payload fields, none of them twice. -/
def payloadFieldsKnown (line : Bytes) : Bool :=
  fieldsKnown (ascii "PAYLOAD") payloadKeys line &&
    payloadKeys.all fun key => fieldOccurrences (fieldParts line) key ≤ 1

/-- All component fields, each of them once. -/
def componentFieldsKnown (line : Bytes) : Bool :=
  fieldsKnown (ascii "COMPONENT") componentKeys line &&
    componentKeys.all fun key => fieldOccurrences (fieldParts line) key == 1

def parseFingerprint (line known_key size_key checksum_key : Bytes) :
    Option (Bool × UInt64 × UInt32) :=
  match optionalField line known_key with
  | some raw_known =>
    match parseBool01 raw_known with
    | none => none
    | some true => do
        let size ← parseU64 (← optionalField line size_key)
        let digest ← parseU32 (← optionalField line checksum_key)
        return (true, size, digest)
    | some false => do
        guard ((optionalField line size_key).all fun value => parseU64 value == some 0)
        guard ((optionalField line checksum_key).all fun value => parseU32 value == some 0)
        return (false, 0, 0)
  | none => do
      guard (optionalField line size_key = none ∧ optionalField line checksum_key = none)
      return (false, 0, 0)

/-- The inherited backup of a payload line, which may be empty. -/
def parsePreviousBackup (line : Bytes) : Option (Bounded max_path) :=
  let previous_backup := (optionalField line (ascii "previous_backup=")).getD []
  if previous_backup = [] then some default else normalizeAbsolutePath max_path previous_backup

/-- Read one payload line: its index and its entry. -/
def parsePayloadLine (payload_count : Nat) (line : Bytes) : Option (Nat × JournalPayload) := do
  guard (payloadFieldsKnown line)
  let index ← parseU32 (← requiredField line (ascii "index="))
  guard (index.toNat < payload_count)
  let target_path ← normalizeAbsolutePath max_path (← requiredField line (ascii "target="))
  let stage_path ← normalizeAbsolutePath max_path (← requiredField line (ascii "stage="))
  let backup_path ← normalizeAbsolutePath max_path (← requiredField line (ascii "backup="))
  let previous_backup_path ← parsePreviousBackup line
  let previous ← parseFingerprint line (ascii "previous_known=") (ascii "previous_size=")
    (ascii "previous_checksum=")
  guard (!(previous.1 && previous_backup_path.bytes == []))
  let size ← parseU64 (← requiredField line (ascii "size="))
  let digest ← parseU32 (← requiredField line (ascii "checksum="))
  let target_existed ← parseBool01 (← requiredField line (ascii "existed="))
  let old ← parseFingerprint line (ascii "old_known=") (ascii "old_size=") (ascii "old_checksum=")
  guard (!(old.1 && !target_existed))
  let replace_required ← parseBool01 (← requiredField line (ascii "required="))
  let committed ← parseBool01 (← requiredField line (ascii "committed="))
  let rolled_back ← parseBool01 (← requiredField line (ascii "rolled_back="))
  guard (!(committed && rolled_back))
  guard (replace_required || (target_existed &&
    !(old.1 && (old.2.1 != size || old.2.2 != digest))))
  return (index.toNat,
    { target_path, stage_path, backup_path, previous_backup_path,
      previous_backup_known := previous.1
      previous_backup_size := previous.2.1
      previous_backup_checksum := previous.2.2
      size
      checksum := digest
      target_existed
      old_known := old.1
      old_size := old.2.1
      old_checksum := old.2.2
      committed, rolled_back, replace_required })

/-- Read one component line: its index and its entry. -/
def parseComponentLine (component_count package_payload_count : Nat) (line : Bytes) :
    Option (Nat × JournalComponent) := do
  guard (componentFieldsKnown line)
  let index ← parseU32 (← requiredField line (ascii "index="))
  guard (index.toNat < component_count)
  let payload_index ← parseU32 (← requiredField line (ascii "payload="))
  let kind ← JournalComponentKind.parse (← requiredField line (ascii "kind="))
  let name ← copyTextZ 49 (← requiredField line (ascii "name="))
  let target ← copyTextZ max_path (← requiredField line (ascii "target="))
  let version ← copyTextZ max_version (← requiredField line (ascii "version="))
  let component : JournalComponent := { payload_index, kind, name, target, version }
  guard (payload_index.toNat < package_payload_count && componentValid component)
  return (index.toNat, component)

/-- Entries of an array read so far, with the indices already seen. -/
structure Entries (Entry : Type) where
  entries : List Entry
  seen : List Nat

/-- An array of default entries. -/
def Entries.fresh {Entry : Type} [Inhabited Entry] (count : Nat) : Entries Entry :=
  { entries := List.replicate count default, seen := [] }

def Entries.fill {Entry : Type} (array : Entries Entry) (indexed : Nat × Entry) :
    Option (Entries Entry) :=
  if indexed.1 ∈ array.seen then none
  else some { entries := array.entries.set indexed.1 indexed.2, seen := indexed.1 :: array.seen }

instance : Inhabited JournalComponent := ⟨{}⟩

instance : Inhabited JournalPayload := ⟨{}⟩

/-- Process one line after the header was read. -/
def parseBodyLine (header : TransactionJournal) (payload_count component_count : Nat)
    (arrays : Entries JournalComponent × Entries JournalPayload) (line : Bytes) :
    Option (Entries JournalComponent × Entries JournalPayload) :=
  if startsWith line (ascii "COMPONENT;") then do
    let indexed ← parseComponentLine component_count header.package_payload_count line
    return (← arrays.1.fill indexed, arrays.2)
  else if startsWith line (ascii "PAYLOAD;") then do
    let indexed ← parsePayloadLine payload_count line
    return (arrays.1, ← arrays.2.fill indexed)
  else some arrays

/-- The numbers and switches of the header, with the payload and component counts beside it. -/
def parseHeader (texts : List Bytes) (slot : Nat) : Option (TransactionJournal × Nat × Nat) := do
  let field := fieldValue texts
  let reboot ← parseYesNo (← field (ascii "REBOOT="))
  let foundation ← parseKeyword (ascii "foundation") (ascii "normal") (← field (ascii "PRIORITY="))
  let transaction_generation ← parseU64 (← field (ascii "TRANSACTION_GENERATION="))
  let journal_generation ← parseU64 (← field (ascii "JOURNAL_GENERATION="))
  let phase ← parsePhase (← field (ascii "PHASE="))
  let package_digest ← parseU32 (← field (ascii "PACKAGE_DIGEST="))
  let package_length ← parseU64 (← field (ascii "PACKAGE_LENGTH="))
  let manifest_checksum ← parseU32 (← field (ascii "MANIFEST_CHECKSUM="))
  let component_digest ← parseU32 (← field (ascii "COMPONENT_DIGEST="))
  let component_count ← parseU32 (← field (ascii "COMPONENTS="))
  let components_bound ←
    parseKeyword (ascii "bound") (ascii "legacy") (← field (ascii "COMPONENT_BINDING="))
  let package_payload_count ← parseU32 (← field (ascii "PACKAGE_PAYLOADS="))
  let payload_count ← parseU32 (← field (ascii "PAYLOADS="))
  let committed_count ← parseU32 (← field (ascii "COMMITTED="))
  let rollback_count ← parseU32 (← field (ascii "ROLLED_BACK="))
  let batch ← parseYesNo (← field (ascii "BATCH="))
  let package_payloads := package_payload_count.toNat
  let payloads := payload_count.toNat
  guard (transaction_generation != 0 && journal_generation != 0 && payloads != 0 &&
    payloads ≤ max_payloads && package_payloads != 0 && package_payloads ≤ max_package_payloads &&
    package_payloads ≤ payloads && payloads ≤ package_payloads + (if batch then 2 else 1))
  let source_path ← normalizeAbsolutePath max_path (← field (ascii "SOURCE="))
  let source_version ← copyTextZ max_version (← field (ascii "SOURCE_RELEASE="))
  let target_version ← copyTextZ max_version (← field (ascii "RELEASE="))
  let package_version ← copyTextZ max_version (← field (ascii "PACKAGE_VERSION="))
  guard (versionTextValid source_version.bytes && versionTextValid target_version.bytes &&
    versionTextValid package_version.bytes && component_count.toNat ≤ package_payloads)
  return ({ valid := true, slot, transaction_generation, journal_generation, phase, package_digest,
            package_length, manifest_checksum, component_digest, components_bound, foundation,
            package_version, source_path, source_version, target_version,
            package_payload_count := package_payloads
            committed_count := committed_count.toNat
            rollback_count := rollback_count.toNat
            reboot, batch }, payloads, component_count.toNat)

/-- The body of a journal text whose checksum holds. -/
def checksummedBody (data : Bytes) : Option Bytes := do
  let checksum_marker ← lastIndexOf (ascii "CHECKSUM=") data
  guard (checksum_marker = 0 ∨ data[checksum_marker - 1]? = some newline)
  let line := (data.drop checksum_marker).takeWhile fun byte => byte != newline
  guard (checksum_marker + line.length + 1 = data.length)
  let expected ← parseU32 (line.drop (ascii "CHECKSUM=").length)
  guard (checksum (data.take checksum_marker) = expected)
  return data.take checksum_marker

def parseJournalInto (data : Bytes) (slot : Nat) : Option TransactionJournal := do
  guard (slot ≤ 1 ∧ data ≠ [] ∧ data.length ≤ journal_max)
  let body ← checksummedBody data
  let journal_version ← journalField data (ascii "R4U_JOURNAL=")
  guard (equalsIgnoreCase journal_version (ascii "5"))
  let texts := (lines body).map trim
  guard (journalLinesKnown texts)
  let (header, payload_count, component_count) ← parseHeader ((lines data).map trim) slot
  let arrays ← texts.foldlM (parseBodyLine header payload_count component_count)
    (Entries.fresh component_count, Entries.fresh payload_count)
  guard (arrays.1.seen.length = if header.components_bound then component_count else 0)
  guard (arrays.2.seen.length = payload_count)
  let journal := { header with components := arrays.1.entries, payloads := arrays.2.entries }
  guard (journalValid journal)
  return journal

end R4OS.Update
