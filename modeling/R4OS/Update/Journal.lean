import R4OS.Update.Paths

/-!
# The transaction journal

The durable record of one package transaction or restart batch, and when such a record is valid.
The arrays of the source are lists of their used entries, so that the payload and component counts
are list lengths.
-/

namespace R4OS.Update

open Text
open Path (isAsciiAlpha)

/-- Bytes of a serialized journal. -/
def journal_max : Nat := 192 * 1024

def max_package_payloads : Nat := 32

/-- Payloads of one transaction. -/
def max_payloads : Nat := max_package_payloads + 2

/-- Capacity of a version buffer, with its terminating zero. -/
def max_version : Nat := 32

/-- Where a transaction stands. -/
inductive JournalPhase
  | prepare
  | stage
  | commit
  | verify
  | inventory
  | applied
  | post_boot
  | cleanup
  | rollback
  | rolled_back
  deriving DecidableEq

/-- All phases in declaration order. -/
def JournalPhase.all : List JournalPhase :=
  [.prepare, .stage, .commit, .verify, .inventory, .applied, .post_boot, .cleanup, .rollback,
    .rolled_back]

def phaseName : JournalPhase → Bytes
  | .prepare => ascii "prepare"
  | .stage => ascii "stage"
  | .commit => ascii "commit"
  | .verify => ascii "verify"
  | .inventory => ascii "inventory"
  | .applied => ascii "applied"
  | .post_boot => ascii "post_boot"
  | .cleanup => ascii "cleanup"
  | .rollback => ascii "rollback"
  | .rolled_back => ascii "rolled_back"

/-- The phases after which no recovery is due. -/
def phaseTerminal (phase : JournalPhase) : Bool := phase == .cleanup || phase == .rolled_back

/-- One payload: its files, their fingerprints and its replay markers. -/
structure JournalPayload where
  target_path : Bounded max_path := default
  stage_path : Bounded max_path := default
  backup_path : Bounded max_path := default
  previous_backup_path : Bounded max_path := default
  previous_backup_known : Bool := false
  previous_backup_size : UInt64 := 0
  previous_backup_checksum : UInt32 := 0
  size : UInt64 := 0
  checksum : UInt32 := 0
  target_existed : Bool := false
  old_known : Bool := false
  old_size : UInt64 := 0
  old_checksum : UInt32 := 0
  committed : Bool := false
  rolled_back : Bool := false
  replace_required : Bool := true

namespace JournalPayload

def targetText (entry : JournalPayload) : Bytes := entry.target_path.bytes

def stageText (entry : JournalPayload) : Bytes := entry.stage_path.bytes

def backupText (entry : JournalPayload) : Bytes := entry.backup_path.bytes

/-- The bytes of the inherited backup path. -/
def previousBackupText (entry : JournalPayload) : Bytes := entry.previous_backup_path.bytes

end JournalPayload

/-- Kinds of installed components. -/
inductive JournalComponentKind
  | kernel
  | r4x
  | r4l
  | r4d
  | r4p
  deriving DecidableEq

namespace JournalComponentKind

/-- All kinds in declaration order. -/
def all : List JournalComponentKind := [.kernel, .r4x, .r4l, .r4d, .r4p]

def text : JournalComponentKind → Bytes
  | .kernel => ascii "KERNEL"
  | .r4x => ascii "R4X"
  | .r4l => ascii "R4L"
  | .r4d => ascii "R4D"
  | .r4p => ascii "R4P"

/-- Read a kind in any ASCII case. -/
def parse (value : Bytes) : Option JournalComponentKind :=
  all.find? fun kind => value.map toUpper == kind.text.map toUpper

end JournalComponentKind

/-- One component bound to a payload of the package. -/
structure JournalComponent where
  payload_index : UInt32 := 0
  kind : JournalComponentKind := .r4x
  name : Bounded 49 := default
  target : Bounded max_path := default
  version : Bounded max_version := default

structure TransactionJournal where
  valid : Bool := false
  slot : Nat := 0
  transaction_generation : UInt64 := 0
  journal_generation : UInt64 := 0
  phase : JournalPhase := .prepare
  package_digest : UInt32 := 0
  package_length : UInt64 := 0
  manifest_checksum : UInt32 := 0
  component_digest : UInt32 := 0
  components_bound : Bool := true
  components : List JournalComponent := []
  foundation : Bool := false
  package_version : Bounded max_version := default
  source_path : Bounded max_path := default
  source_version : Bounded max_version := default
  target_version : Bounded max_version := default
  package_payload_count : Nat := 0
  committed_count : Nat := 0
  rollback_count : Nat := 0
  reboot : Bool := false
  batch : Bool := false
  rollback_markers_present : Bool := true
  payloads : List JournalPayload := []

namespace TransactionJournal

/-- Used entries of the payload array. -/
def payload_count (journal : TransactionJournal) : Nat := journal.payloads.length

/-- Used entries of the component array. -/
def component_count (journal : TransactionJournal) : Nat := journal.components.length

/-- The bytes of the package path. -/
def sourceText (journal : TransactionJournal) : Bytes := journal.source_path.bytes

end TransactionJournal

def recount (journal : TransactionJournal) : TransactionJournal :=
  { journal with
    committed_count := journal.payloads.countP JournalPayload.committed
    rollback_count := journal.payloads.countP JournalPayload.rolled_back }

/-- Scan one byte of a version: digits of the current part and its value. -/
def versionStep (state : Nat × Nat) (byte : UInt8) : Option (Nat × Nat) :=
  if isDigit byte then
    if state.2 * 10 < 2 ^ 32 ∧ state.2 * 10 + digitValue byte < 2 ^ 32 then
      some (state.1 + 1, state.2 * 10 + digitValue byte)
    else none
  else if byte = chr '.' ∧ state.1 ≠ 0 then some (0, 0)
  else none

/-- Dotted decimal versions. -/
def versionTextValid (value : Bytes) : Bool :=
  value != [] && value.length < max_version &&
    (value.foldlM versionStep (0, 0)).any fun state => state.1 != 0

/-- Names of components. -/
def componentTokenValid (value : Bytes) : Bool :=
  value != [] && value.length ≤ 48 &&
    value.all fun byte => chr ' ' < byte && byte < 0x7f && !(ascii ";=|").contains byte

/-- A target on a mounted volume other than the system drive. -/
def foreignComponentTarget : Bytes → Bool
  | drive :: colon :: slash :: _ :: _ =>
    isAsciiAlpha drive && toUpper drive != chr 'C' && colon == chr ':' && slash == chr '/'
  | _ => false

def componentTargetByte (byte : UInt8) : Bool :=
  0x20 ≤ byte && byte != 0x7f && !(ascii ";=|\\").contains byte

/-- Whether the target suits the kind of the component. -/
def componentKindValid (component : JournalComponent) : Bool :=
  match component.kind with
  | .kernel =>
    equalsIgnoreCase component.name.bytes (ascii "KERNEL") &&
      pathEqualsIgnoreCase component.target.bytes (ascii "/boot/r4os.elf")
  | .r4x => endsWithIgnoreCase component.target.bytes (ascii ".R4X")
  | .r4l => endsWithIgnoreCase component.target.bytes (ascii ".R4L")
  | .r4d => endsWithIgnoreCase component.target.bytes (ascii ".R4D")
  | .r4p => endsWithIgnoreCase component.target.bytes (ascii ".R4P")

/-- Whether one component entry is well formed. -/
def componentValid (component : JournalComponent) : Bool :=
  componentTokenValid component.name.bytes && versionTextValid component.version.bytes &&
    component.target.bytes != [] && component.target.bytes.length < max_path &&
    (component.target.bytes.head? == some (chr '/') ||
      foreignComponentTarget component.target.bytes) &&
    utf8ValidateSlice component.target.bytes && component.target.bytes.all componentTargetByte &&
    componentKindValid component

/-- Two components that cannot stand in one journal. -/
def componentsClash (component prior : JournalComponent) : Bool :=
  (component.kind == prior.kind && equalsIgnoreCase component.name.bytes prior.name.bytes) ||
    pathEqualsIgnoreCase component.target.bytes prior.target.bytes

/-- Whether the bound components are well formed and distinct. -/
def componentsValid (journal : TransactionJournal) : Bool :=
  journal.components.all (fun component =>
    component.payload_index.toNat < journal.package_payload_count && componentValid component) &&
  decide (journal.components.Pairwise fun prior component => !componentsClash component prior)

/-- The nonempty paths of a payload in the order they are compared. -/
def journalPayloadPaths (entry : JournalPayload) : List Bytes :=
  [entry.targetText, entry.stageText, entry.backupText, entry.previousBackupText].filter
    fun path => path ≠ []

def internalNameValid (journal : TransactionJournal) (entry : JournalPayload) (path : Bytes)
    (letter : UInt8) (index : Nat) : Bool :=
  match buildInternal83Name max_path entry.targetText letter journal.transaction_generation index with
  | some expected =>
    validateShortName83Text (baseName path) &&
      pathEqualsIgnoreCase (parentPathText entry.targetText) (parentPathText path) &&
      pathEqualsIgnoreCase path expected
  | none => false

/-- Whether the four paths of one payload belong together. -/
def payloadPathsValid (journal : TransactionJournal) (indexed : JournalPayload × Nat) : Bool :=
  validTarget indexed.1.targetText &&
    internalNameValid journal indexed.1 indexed.1.stageText (chr 'S') indexed.2 &&
    internalNameValid journal indexed.1 indexed.1.backupText (chr 'B') indexed.2 &&
    (indexed.1.previousBackupText == [] ||
      (validateShortName83Text (baseName indexed.1.previousBackupText) &&
        pathEqualsIgnoreCase (parentPathText indexed.1.targetText)
          (parentPathText indexed.1.previousBackupText)))

/-- Whether all paths of a journal are admissible and pairwise different. -/
def journalPathsValid (journal : TransactionJournal) : Bool :=
  let paths := journal.payloads.flatMap journalPayloadPaths
  startsWithIgnoreCase journal.sourceText (ascii "C:\\R4OS\\UPDATE\\INBOX\\") &&
    journal.payloads.zipIdx.all (payloadPathsValid journal) &&
    paths.all (fun path => !pathEqualsIgnoreCase journal.sourceText path) &&
    decide (paths.Pairwise fun path other => !pathEqualsIgnoreCase path other)

/-- Cross-field rules of one payload. -/
def payloadValid (entry : JournalPayload) : Bool :=
  entry.targetText != [] && entry.stageText != [] && entry.backupText != [] &&
    !(entry.old_known && !entry.target_existed) &&
    !(entry.previous_backup_known && entry.previousBackupText == []) &&
    !(entry.committed && entry.rolled_back) &&
    !(!entry.target_existed && (entry.old_known || entry.old_size != 0 || entry.old_checksum != 0)) &&
    !(!entry.previous_backup_known &&
      (entry.previous_backup_size != 0 || entry.previous_backup_checksum != 0)) &&
    (entry.replace_required || (entry.target_existed &&
      !(entry.old_known && (entry.old_size != entry.size || entry.old_checksum != entry.checksum))))

/-- Committed payloads come first, rolled-back payloads last. -/
def markersOrdered : (saw_uncommitted saw_rollback : Bool) → List JournalPayload → Bool
  | _, _, [] => true
  | saw_uncommitted, saw_rollback, entry :: rest =>
    !(entry.committed && saw_uncommitted) && !(!entry.rolled_back && saw_rollback) &&
      markersOrdered (saw_uncommitted || !entry.committed) (saw_rollback || entry.rolled_back) rest

/-- Which marker counts each phase admits. -/
def phaseCountsValid (journal : TransactionJournal) : Bool :=
  match journal.phase with
  | .prepare | .stage => journal.committed_count == 0 && journal.rollback_count == 0
  | .commit => journal.rollback_count == 0
  | .verify =>
    journal.payload_count == journal.package_payload_count &&
      journal.committed_count == journal.payload_count && journal.rollback_count == 0
  | .inventory =>
    journal.payload_count == journal.package_payload_count + 1 &&
      (journal.committed_count == journal.package_payload_count ||
        journal.committed_count == journal.payload_count) && journal.rollback_count == 0
  | .applied | .post_boot | .cleanup =>
    journal.committed_count == journal.payload_count && journal.rollback_count == 0
  | .rollback => true
  | .rolled_back => journal.committed_count == 0 && journal.rollback_count == journal.payload_count

/-- The header rules: generations, counts, versions. -/
def headerValid (journal : TransactionJournal) : Bool :=
  journal.valid && journal.slot ≤ 1 && journal.transaction_generation != 0 &&
    journal.journal_generation != 0 && journal.package_length != 0 &&
    journal.package_payload_count != 0 && journal.package_payload_count ≤ max_package_payloads &&
    journal.payload_count != 0 && journal.payload_count ≤ max_payloads &&
    journal.package_payload_count ≤ journal.payload_count &&
    journal.payload_count ≤ journal.package_payload_count + (if journal.batch then 2 else 1) &&
    journal.committed_count ≤ journal.payload_count &&
    journal.rollback_count ≤ journal.payload_count &&
    journal.component_count ≤ journal.package_payload_count &&
    versionTextValid journal.source_version.bytes && versionTextValid journal.target_version.bytes &&
    versionTextValid journal.package_version.bytes

/-- Whether a journal may be written, read back and acted upon. -/
def journalValid (journal : TransactionJournal) : Bool :=
  headerValid journal && journalPathsValid journal &&
    !(journal.batch && (!journal.reboot || !journal.components_bound)) &&
    !(journal.phase == .post_boot && !journal.batch) &&
    (!journal.components_bound || componentsValid journal) &&
    journal.payloads.all payloadValid && markersOrdered false false journal.payloads &&
    journal.payloads.countP JournalPayload.committed == journal.committed_count &&
    journal.payloads.countP JournalPayload.rolled_back == journal.rollback_count &&
    phaseCountsValid journal

def samplePayload : JournalPayload :=
  { target_path := ⟨ascii "C:\\TEMP\\A.BIN", by decide⟩
    stage_path := ⟨ascii "C:\\TEMP\\S715609D.R4U", by decide⟩
    backup_path := ⟨ascii "C:\\TEMP\\B715609D.R4U", by decide⟩
    size := 50
    checksum := 60
    target_existed := true
    old_known := true
    old_size := 40
    old_checksum := 41 }

/-- A staged restart batch with one payload. -/
def sampleBatch : TransactionJournal :=
  { valid := true
    transaction_generation := 5
    journal_generation := 1
    phase := .stage
    package_digest := 10
    package_length := 1000
    manifest_checksum := 20
    component_digest := 30
    package_version := ⟨ascii "1.0.0", by decide⟩
    source_path := ⟨ascii "C:\\R4OS\\UPDATE\\INBOX\\PKG.R4U", by decide⟩
    source_version := ⟨ascii "0.63.12", by decide⟩
    target_version := ⟨ascii "0.63.13", by decide⟩
    package_payload_count := 1
    reboot := true
    batch := true
    payloads := [samplePayload] }

end R4OS.Update
