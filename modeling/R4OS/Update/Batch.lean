import R4OS.Update.JournalText

/-!
# The batch journal

The durable record of one restart batch of packages, its canonical text and its parser.  Unlike the
transaction journal it is parsed line by line, and every line may occur once.
-/

namespace R4OS.Update
namespace Batch

open Text

def max_packages : Nat := 16

/-- Bytes of a serialized batch journal. -/
def journal_max : Nat := 64 * 1024

/-- Bytes of a failure reason. -/
def max_reason : Nat := 64

/-- Bytes of a package header. -/
def header_size : Nat := 64

def package_name_max_bytes : Nat := 48

def version_max_bytes : Nat := 24

/-- Compare two texts up to ASCII case. -/
def eqlIgnoreCase (a b : Bytes) : Bool := a.map toUpper == b.map toUpper

/-- Where a batch stands. -/
inductive Phase
  | staged
  | verifying
  | staging
  | committing
  | pending_restart
  | installed
  | failed
  | rolling_back
  | rolled_back
  deriving DecidableEq

namespace Phase

/-- All phases in declaration order. -/
def all : List Phase :=
  [.staged, .verifying, .staging, .committing, .pending_restart, .installed, .failed, .rolling_back,
    .rolled_back]

def text : Phase → Bytes
  | .staged => ascii "staged"
  | .verifying => ascii "verifying"
  | .staging => ascii "staging"
  | .committing => ascii "committing"
  | .pending_restart => ascii "pending-restart"
  | .installed => ascii "installed"
  | .failed => ascii "failed"
  | .rolling_back => ascii "rolling-back"
  | .rolled_back => ascii "rolled-back"

/-- Read a phase in any ASCII case. -/
def parse (value : Bytes) : Option Phase := all.find? fun phase => eqlIgnoreCase value phase.text

end Phase

/-- How a package becomes active. -/
inductive InstallMode
  | live
  | restart
  deriving DecidableEq

def InstallMode.text : InstallMode → Bytes
  | .live => ascii "live"
  | .restart => ascii "restart"

/-- Read an install mode in any ASCII case. -/
def InstallMode.parse (value : Bytes) : Option InstallMode :=
  if eqlIgnoreCase value (ascii "live") then some .live
  else if eqlIgnoreCase value (ascii "restart") then some .restart
  else none

/-- The install order class of a package. -/
inductive Priority
  | normal
  | foundation
  deriving DecidableEq

def Priority.text : Priority → Bytes
  | .normal => ascii "normal"
  | .foundation => ascii "foundation"

/-- Read a priority in any ASCII case. -/
def Priority.parse (value : Bytes) : Option Priority :=
  if eqlIgnoreCase value (ascii "normal") then some .normal
  else if eqlIgnoreCase value (ascii "foundation") then some .foundation
  else none

/-- One package of a batch. -/
structure PackageEntry where
  order : Nat := 0
  path : Bounded max_path := default
  package : Bounded (package_name_max_bytes + 1) := default
  package_version : Bounded (version_max_bytes + 1) := default
  release : Bounded (version_max_bytes + 1) := default
  package_length : UInt64 := 0
  package_digest : UInt32 := 0
  manifest_checksum : UInt32 := 0
  component_digest : UInt32 := 0
  activation : InstallMode := .restart
  priority : Priority := .normal

structure BatchJournal where
  slot : Nat := 0
  valid : Bool := false
  batch_generation : UInt64 := 0
  journal_generation : UInt64 := 0
  phase : Phase := .staged
  current_package : Nat := 0
  source_release : Bounded (version_max_bytes + 1) := default
  target_release : Bounded (version_max_bytes + 1) := default
  reason : Bounded (max_reason + 1) := default
  packages : List PackageEntry := []

/-- Used entries of the package array. -/
def BatchJournal.package_count (journal : BatchJournal) : Nat := journal.packages.length

/-- One number of a version: no leading zero and at most 32 bits. -/
def versionPartValid (part : Bytes) : Bool :=
  !(1 < part.length && part.head? == some (chr '0')) && (parseDecimal (2 ^ 32 - 1) part).isSome

/-- Versions of three numbers. -/
def validSemanticVersion (value : Bytes) : Bool :=
  value != [] && value.length ≤ version_max_bytes &&
    (value.splitOn (chr '.')).all versionPartValid && (value.splitOn (chr '.')).length == 3

/-- Names without blanks and separators. -/
def validToken (value : Bytes) (max_bytes : Nat) : Bool :=
  value != [] && value.length ≤ max_bytes &&
    value.all fun byte => chr ' ' < byte && byte < 0x7f && !(ascii ";|=").contains byte

/-- Printable reasons without separators. -/
def validReason (value : Bytes) : Bool :=
  value.length ≤ max_reason &&
    value.all fun byte => 0x20 ≤ byte && byte < 0x7f && !(ascii ";=").contains byte

/-- Whether one package entry is well formed. -/
def entryValid (journal : BatchJournal) (entry : PackageEntry) : Bool :=
  entry.order < journal.package_count && entry.path.bytes != [] &&
    entry.path.bytes.length < max_path && validToken entry.package.bytes package_name_max_bytes &&
    validSemanticVersion entry.package_version.bytes && validSemanticVersion entry.release.bytes &&
    entry.release.bytes == journal.target_release.bytes &&
    header_size < entry.package_length.toNat

/-- Two packages that cannot stand in one batch. -/
def entriesClash (entry prior : PackageEntry) : Bool :=
  eqlIgnoreCase entry.path.bytes prior.path.bytes ||
    eqlIgnoreCase entry.package.bytes prior.package.bytes

/-- Whether a batch journal may be written, read back and acted upon. -/
def journalValid (journal : BatchJournal) : Bool :=
  journal.valid && journal.slot ≤ 1 && journal.batch_generation != 0 &&
    journal.journal_generation != 0 && journal.package_count != 0 &&
    journal.package_count ≤ max_packages && journal.current_package ≤ journal.package_count &&
    validSemanticVersion journal.source_release.bytes &&
    validSemanticVersion journal.target_release.bytes && validReason journal.reason.bytes &&
    journal.packages.all (entryValid journal) && decide (journal.packages.map PackageEntry.order).Nodup &&
    decide (journal.packages.Pairwise fun prior entry => !entriesClash entry prior)

/-- The header lines in order. -/
def headerFields (journal : BatchJournal) : List (Bytes × Bytes) :=
  [ (ascii "R4U_BATCH=", ascii "1"),
    (ascii "BATCH_GENERATION=", decimal journal.batch_generation.toNat),
    (ascii "JOURNAL_GENERATION=", decimal journal.journal_generation.toNat),
    (ascii "PHASE=", journal.phase.text),
    (ascii "SOURCE_RELEASE=", journal.source_release.bytes),
    (ascii "TARGET_RELEASE=", journal.target_release.bytes),
    (ascii "PACKAGES=", decimal journal.package_count),
    (ascii "CURRENT_PACKAGE=", decimal journal.current_package),
    (ascii "REASON=", journal.reason.bytes) ]

def packageFields (indexed : PackageEntry × Nat) : List (Bytes × Bytes) :=
  [ (ascii "index=", decimal indexed.2),
    (ascii "order=", decimal indexed.1.order),
    (ascii "path=", indexed.1.path.bytes),
    (ascii "package=", indexed.1.package.bytes),
    (ascii "version=", indexed.1.package_version.bytes),
    (ascii "release=", indexed.1.release.bytes),
    (ascii "length=", decimal indexed.1.package_length.toNat),
    (ascii "digest=", decimal indexed.1.package_digest.toNat),
    (ascii "manifest=", decimal indexed.1.manifest_checksum.toNat),
    (ascii "component=", decimal indexed.1.component_digest.toNat),
    (ascii "activation=", indexed.1.activation.text),
    (ascii "priority=", indexed.1.priority.text) ]

def packageLine (indexed : PackageEntry × Nat) : Bytes :=
  fieldLine (ascii "PACKAGE") (packageFields indexed)

/-- All lines before the checksum. -/
def bodyLines (journal : BatchJournal) : List Bytes :=
  (headerFields journal).map keyed ++ journal.packages.zipIdx.map packageLine

/-- The bytes that the checksum covers. -/
def journalBody (journal : BatchJournal) : Bytes := unlines (bodyLines journal)

def journalText (journal : BatchJournal) : Bytes :=
  journalBody journal ++ (checksumLine (journalBody journal) ++ [newline])

/-- Serialize a valid batch journal into a buffer of the given capacity. -/
def serializeJournal (journal : BatchJournal) (capacity : Nat) : Option Bytes :=
  if journalValid journal ∧ (journalText journal).length ≤ capacity then some (journalText journal)
  else none

def isLineEnd (byte : UInt8) : Bool := byte == chr '\r' || byte == chr '\n'

/-- Remove line ends behind a line. -/
def trimLine (value : Bytes) : Bytes := value.rdropWhile isLineEnd

/-- Read a 64-bit number. -/
def parseU64 (value : Bytes) : Option UInt64 := (parseDecimal (2 ^ 64 - 1) value).map UInt64.ofNat

/-- Read a 32-bit number. -/
def parseU32 (value : Bytes) : Option UInt32 :=
  match parseU64 value with
  | some parsed => if parsed.toNat ≤ 2 ^ 32 - 1 then some (UInt32.ofNat parsed.toNat) else none
  | none => none

def lastLineStart (data key : Bytes) : Option Nat :=
  let ended := trimLine data
  let start :=
    match lastIndexOf [newline] ended with
    | some at_ => at_ + 1
    | none => 0
  if startsWith (ended.drop start) key then some start else none

def firstField (line key : Bytes) : Option Bytes :=
  ((fieldParts line).find? fun field => startsWith field key).map fun field => field.drop key.length

def packageNames : List Bytes :=
  [ ascii "index", ascii "order", ascii "path", ascii "package", ascii "version", ascii "release",
    ascii "length", ascii "digest", ascii "manifest", ascii "component", ascii "activation",
    ascii "priority" ]

/-- Whether all fields behind the tag have known names. -/
def lineFieldsKnown (line : Bytes) (known : List Bytes) : Bool :=
  (fieldParts line).tail.all fun field =>
    field.contains (chr '=') && known.contains (field.takeWhile fun byte => byte != chr '=')

def parsePackageLine (line : Bytes) (expected_index : Nat) : Option PackageEntry := do
  guard (expected_index < max_packages ∧ lineFieldsKnown line packageNames)
  let index ← parseU32 (← firstField line (ascii "index="))
  guard (index.toNat = expected_index)
  let order ← parseU32 (← firstField line (ascii "order="))
  guard (order.toNat < max_packages)
  let path ← normalizeAbsolutePath max_path (← firstField line (ascii "path="))
  let package ← copyTextZ (package_name_max_bytes + 1) (← firstField line (ascii "package="))
  let package_version ← copyTextZ (version_max_bytes + 1) (← firstField line (ascii "version="))
  let release ← copyTextZ (version_max_bytes + 1) (← firstField line (ascii "release="))
  let package_length ← parseU64 (← firstField line (ascii "length="))
  let package_digest ← parseU32 (← firstField line (ascii "digest="))
  let manifest_checksum ← parseU32 (← firstField line (ascii "manifest="))
  let component_digest ← parseU32 (← firstField line (ascii "component="))
  let activation ← InstallMode.parse (← firstField line (ascii "activation="))
  let priority ← Priority.parse (← firstField line (ascii "priority="))
  return { order := order.toNat
           path, package, package_version, release, package_length, package_digest,
           manifest_checksum, component_digest, activation, priority }

/-- What the lines read so far have set. -/
structure BatchScan where
  saw_magic : Bool := false
  batch_generation : Option UInt64 := none
  journal_generation : Option UInt64 := none
  phase : Option Phase := none
  source_release : Option (Bounded (version_max_bytes + 1)) := none
  target_release : Option (Bounded (version_max_bytes + 1)) := none
  package_count : Option Nat := none
  current_package : Option Nat := none
  reason : Option (Bounded (max_reason + 1)) := none
  packages : List PackageEntry := []

def once {Value : Type} (seen value : Option Value) (set : Value → BatchScan) : Option BatchScan :=
  if seen.isSome then none else value.map set

/-- Process one line before the checksum. -/
def parseLine (scan : BatchScan) (line : Bytes) : Option BatchScan :=
  let after (key : Bytes) : Bytes := line.drop key.length
  if line = [] then some scan
  else if line = ascii "R4U_BATCH=1" then
    if scan.saw_magic then none else some { scan with saw_magic := true }
  else if startsWith line (ascii "BATCH_GENERATION=") then
    once scan.batch_generation (parseU64 (after (ascii "BATCH_GENERATION="))) fun value =>
      { scan with batch_generation := some value }
  else if startsWith line (ascii "JOURNAL_GENERATION=") then
    once scan.journal_generation (parseU64 (after (ascii "JOURNAL_GENERATION="))) fun value =>
      { scan with journal_generation := some value }
  else if startsWith line (ascii "PHASE=") then
    once scan.phase (Phase.parse (after (ascii "PHASE="))) fun value =>
      { scan with phase := some value }
  else if startsWith line (ascii "SOURCE_RELEASE=") then
    once scan.source_release (copyTextZ _ (after (ascii "SOURCE_RELEASE="))) fun value =>
      { scan with source_release := some value }
  else if startsWith line (ascii "TARGET_RELEASE=") then
    once scan.target_release (copyTextZ _ (after (ascii "TARGET_RELEASE="))) fun value =>
      { scan with target_release := some value }
  else if startsWith line (ascii "PACKAGES=") then
    once scan.package_count ((parseU32 (after (ascii "PACKAGES="))).map UInt32.toNat) fun value =>
      { scan with package_count := some value }
  else if startsWith line (ascii "CURRENT_PACKAGE=") then
    once scan.current_package ((parseU32 (after (ascii "CURRENT_PACKAGE="))).map UInt32.toNat) fun value =>
      { scan with current_package := some value }
  else if startsWith line (ascii "REASON=") then
    once scan.reason (copyTextZ _ (after (ascii "REASON="))) fun value =>
      { scan with reason := some value }
  else if startsWith line (ascii "PACKAGE;") then
    (parsePackageLine line scan.packages.length).map fun entry =>
      { scan with packages := scan.packages ++ [entry] }
  else none

/-- The journal of a scan in which every header line and every package was read. -/
def BatchScan.journal (scan : BatchScan) (slot : Nat) : Option BatchJournal := do
  guard (scan.saw_magic = true)
  let batch_generation ← scan.batch_generation
  let journal_generation ← scan.journal_generation
  let phase ← scan.phase
  let source_release ← scan.source_release
  let target_release ← scan.target_release
  let package_count ← scan.package_count
  let current_package ← scan.current_package
  let reason ← scan.reason
  guard (scan.packages.length = package_count)
  return { slot, valid := true, batch_generation, journal_generation, phase, current_package,
           source_release, target_release, reason, packages := scan.packages }

def parseJournalInto (data : Bytes) (slot : Nat) : Option BatchJournal := do
  guard (slot ≤ 1 ∧ data ≠ [] ∧ data.length ≤ journal_max)
  let checksum_start ← lastLineStart data (ascii "CHECKSUM=")
  let checksum_line := trimLine (data.drop checksum_start)
  let stored_checksum ← parseU32 (checksum_line.drop (ascii "CHECKSUM=").length)
  guard (stored_checksum = checksum (data.take checksum_start))
  let scan ← (((data.take checksum_start).splitOn newline).map trimLine).foldlM parseLine {}
  let journal ← scan.journal slot
  guard (journalValid journal)
  return journal

/-- A staged batch with one package. -/
def sampleJournal : BatchJournal :=
  { valid := true
    batch_generation := 5
    journal_generation := 1
    source_release := ⟨ascii "0.63.12", by decide⟩
    target_release := ⟨ascii "0.63.13", by decide⟩
    packages :=
      [ { path := sampleBatch.source_path
          package := ⟨ascii "core", by decide⟩
          package_version := ⟨ascii "1.0.0", by decide⟩
          release := ⟨ascii "0.63.13", by decide⟩
          package_length := 1000 } ] }

end Batch
end R4OS.Update
