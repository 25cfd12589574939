import R4OS.Crash.Fallible
import R4OS.Persistence.AsyncStore

/-!
# The synchronous save store

One save file with its private stage and backup names.  A write first finishes whatever an earlier
one left behind, then stages the complete snapshot and replaces the target by it; a read finishes an
earlier write, too.  The file calls are operations whose answers may be failures.
-/

namespace R4OS.Persistence

open Crash Text

/-- The names of one save file and of the lease that serializes its transactions. -/
inductive FileName
  | target
  | stage
  | backup
  | transaction
  deriving DecidableEq

/-- Failure codes of the file calls, as far as the store tells them apart. -/
inductive FileFault
  | not_found
  | io
  | «exists»
  | unsupported
  | too_large
  | other
  deriving DecidableEq

/-- Answer of a file query. -/
inductive FileInfoResult
  | value (is_dir : Bool) (size : Nat)
  | missing
  | failure (fault : FileFault)

/-- Answer of a file operation. -/
inductive FileOperation
  | ok
  | missing
  | failure (fault : FileFault)

/-- Answer of a read. -/
inductive Transfer
  | bytes (data : Bytes)
  | «end»
  | failure (fault : FileFault)

/-- Answer of an atomic replacement. -/
inductive AtomicReplaceResult
  | ok
  | unsupported
  | conflict
  | missing
  | bad_path
  | failure (fault : FileFault)

/-- The file calls of the store. -/
inductive FileCall
  | info (name : FileName)
  | delete (name : FileName)
  | readAt (name : FileName) (offset length : Nat)
  | replaceAtomic
  | streamBegin
  | streamWrite (bytes : Bytes)
  | streamFinish
  | streamAbort
  | leaseCreate
  | leaseWrite (bytes : Bytes)
  | leaseFinish
  | leaseAbort
  | sleep

/-- What a file call answers. -/
abbrev FileCall.Value : FileCall → Type
  | .info _ => FileInfoResult
  | .delete _ | .streamWrite _ | .streamFinish | .leaseWrite _ | .leaseFinish => FileOperation
  | .readAt _ _ _ => Transfer
  | .replaceAtomic => AtomicReplaceResult
  | .streamBegin | .leaseCreate | .leaseAbort => Option FileFault
  | .streamAbort | .sleep => Unit

/-- Programs over the file calls. -/
abbrev Action (Result : Type) : Type := Fallible BackendError FileCall.Value Result

def file (operation : FileCall) : Action operation.Value := Fallible.call operation

/-- What the records of a kind look like. -/
structure Configuration where
  record_bytes : FileKind → Nat
  validate : FileKind → Bytes → Bool

/-- Attempts of a file call. -/
def create_retry_attempts : Nat := 8

/-- Map a stream failure. -/
def mapOpenFault : FileFault → BackendError
  | .exists => .Busy
  | .unsupported => .Unsupported
  | .too_large => .Full
  | _ => .Io

/-- Failures of the private stream that are tried again. -/
def retryablePrivateStreamFault (fault : FileFault) : Bool := fault == .not_found || fault == .io

def pathSizeWithRetry (name : FileName) : Nat → Action (Option Nat)
  | 0 => throw .Io
  | attempts + 1 => do
      match ← file (.info name) with
      | .value is_dir size => if is_dir then throw .Io else return some size
      | .missing => return none
      | .failure fault =>
        if attempts = 0 then throw (mapOpenFault fault)
        else
          file .sleep
          pathSizeWithRetry name attempts

def pathExistsWithRetry (name : FileName) (attempts : Nat) : Action Bool :=
  return (← pathSizeWithRetry name attempts).isSome

def pathSizeVisibleWithRetry (name : FileName) : Nat → Action (Option Nat)
  | 0 => throw .Io
  | attempts + 1 => do
      match ← file (.info name) with
      | .value is_dir size => if is_dir then throw .Io else return some size
      | .missing =>
        if attempts = 0 then return none
        else
          file .sleep
          pathSizeVisibleWithRetry name attempts
      | .failure fault =>
        if attempts = 0 then throw (mapOpenFault fault)
        else
          file .sleep
          pathSizeVisibleWithRetry name attempts

/-- Delete a private file. -/
def removeAtomicScratch (name : FileName) : Nat → Action Unit
  | 0 => throw .Io
  | attempts + 1 => do
      match ← file (.delete name) with
      | .ok | .missing => return ()
      | .failure fault =>
        if attempts = 0 then throw (mapOpenFault fault)
        else
          file .sleep
          removeAtomicScratch name attempts

/-- Read at an offset, again after a failure. -/
def readAtWithRetry (name : FileName) (offset length : Nat) : Nat → Action Bytes
  | 0 => throw .Io
  | attempts + 1 => do
      match ← file (.readAt name offset length) with
      | .bytes data => return data
      | .end => throw .Io
      | .failure fault =>
        if attempts = 0 then throw (mapOpenFault fault)
        else
          file .sleep
          readAtWithRetry name offset length attempts

/-- Read the rest of a record, every round at least one byte. -/
def readRecordRounds (name : FileName) (length : Nat) : Nat → Bytes → Action Bytes
  | 0, encoded => if length ≤ encoded.length then return encoded else throw .Io
  | rounds + 1, encoded =>
    if length ≤ encoded.length then return encoded
    else do
      let data ← readAtWithRetry name encoded.length (length - encoded.length)
        create_retry_attempts
      if data.length = 0 ∨ length - encoded.length < data.length then throw .Io
      else readRecordRounds name length rounds (encoded ++ data)

def validateRecordAt (configuration : Configuration) (kind : FileKind) (name : FileName) :
    Action Unit := do
  let length := configuration.record_bytes kind
  if length = 0 then throw .Unsupported
  else
    let encoded ← readRecordRounds name length length []
    require (configuration.validate kind encoded) .Io

/-- Check the record in a file of a kind that has records. -/
def validateKindAt (configuration : Configuration) (kind : FileKind) (name : FileName) :
    Action Unit :=
  if kind ≠ .sram then validateRecordAt configuration kind name else return ()

/-- Replace the target by the stage and keep the old target as backup. -/
def replaceAtomicWithRetry : Nat → Action Unit
  | 0 => throw .Io
  | attempts + 1 => do
      match ← file .replaceAtomic with
      | .ok => return ()
      | .unsupported => throw .Unsupported
      | .conflict => throw .Busy
      | .missing | .bad_path => throw .Io
      | .failure fault =>
        if fault ≠ .io ∨ attempts = 0 then throw .Io
        else
          file .sleep
          replaceAtomicWithRetry attempts

/-- Release the lease. -/
def abortOwnedPathWithRetry : Nat → Action Bool
  | 0 => return false
  | attempts + 1 => do
      match ← file .leaseAbort with
      | none | some .not_found => return true
      | some fault =>
        if fault ≠ .io ∨ attempts = 0 then return false
        else
          file .sleep
          abortOwnedPathWithRetry attempts

/-- Give up an attempt to take the lease. -/
def abandonLease (fault : FileFault) (last : Bool) : Action Unit := do
  if ← abortOwnedPathWithRetry create_retry_attempts then
    if !retryablePrivateStreamFault fault || last then throw (mapOpenFault fault)
    else file .sleep
  else throw .Io

/-- The text of the lease. -/
def lock_body : Bytes := ascii "R4OS_SUBSYSTEM_ATOMIC_LOCK=1\n"

def operationFault : FileOperation → Option FileFault
  | .ok => none
  | .missing => some .not_found
  | .failure fault => some fault

def createLease : Nat → Action Unit
  | 0 => throw .Io
  | attempts + 1 => do
      match ← file .leaseCreate with
      | some fault =>
        if !retryablePrivateStreamFault fault || attempts == 0 then throw (mapOpenFault fault)
        else
          abandonLease fault false
          createLease attempts
      | none =>
        match operationFault (← file (.leaseWrite lock_body)) with
        | some fault =>
          abandonLease fault (attempts == 0)
          createLease attempts
        | none =>
          match operationFault (← file .leaseFinish) with
          | some fault =>
            abandonLease fault (attempts == 0)
            createLease attempts
          | none => return ()

/-- Take the lease of a transaction. -/
def beginAtomicTransaction : Action Unit := do
  removeAtomicScratch .transaction create_retry_attempts
  createLease create_retry_attempts

/-- Run a transaction and release its lease, also when it fails. -/
def transact (body : Action Unit) : Action Unit := do
  beginAtomicTransaction
  ExceptT.mk do
    match ← body.run with
    | .error fault => do
        let _ ← (abortOwnedPathWithRetry create_retry_attempts).run
        return .error fault
    | .ok () => do
        match ← (abortOwnedPathWithRetry create_retry_attempts).run with
        | .ok true => return .ok ()
        | _ => do
            let _ ← (abortOwnedPathWithRetry create_retry_attempts).run
            return .error .Io

/-- What an earlier transaction left behind. -/
inductive AtomicRecoveryState
  | clean
  | resume_stage
  | cleanup_backup
  | orphan_backup

/-- Classify what stands beside the target. -/
def classifyAtomicRecovery (stage_exists backup_exists target_exists : Bool) :
    AtomicRecoveryState :=
  if stage_exists then .resume_stage
  else if !backup_exists then .clean
  else if target_exists then .cleanup_backup else .orphan_backup

/-- Check the published target and delete the backup. -/
def finishPublished (configuration : Configuration) (kind : FileKind) (expected_size : Nat)
    (target_size : Option Nat) : Action Unit :=
  match target_size with
  | none => throw .Io
  | some size =>
    if size ≠ expected_size then throw .Io
    else do
      validateKindAt configuration kind .target
      removeAtomicScratch .backup create_retry_attempts

/-- Replace the target by the stage, look at it and clean up. -/
def publishStage (configuration : Configuration) (kind : FileKind) (expected_size : Nat) :
    Action Unit := do
  replaceAtomicWithRetry create_retry_attempts
  let target_size ← pathSizeVisibleWithRetry .target create_retry_attempts
  finishPublished configuration kind expected_size target_size

def recoveryTargetSize (stage_size : Option Nat) (backup_exists : Bool) : Action (Option Nat) :=
  if stage_size.isNone && backup_exists then
    pathSizeVisibleWithRetry .target create_retry_attempts
  else return none

/-- Finish the transaction that an earlier call left behind. -/
def recoverAtomicKind (configuration : Configuration) (kind : FileKind) (expected_size : Nat) :
    Action Unit := do
  let stage_size ← pathSizeWithRetry .stage create_retry_attempts
  let backup_exists ← pathExistsWithRetry .backup create_retry_attempts
  let recovery_target_size ← recoveryTargetSize stage_size backup_exists
  match classifyAtomicRecovery stage_size.isSome backup_exists recovery_target_size.isSome with
  | .clean => return ()
  | .resume_stage =>
    if stage_size ≠ some expected_size then throw .Io
    else
      validateKindAt configuration kind .stage
      publishStage configuration kind expected_size
  | .cleanup_backup => finishPublished configuration kind expected_size recovery_target_size
  | .orphan_backup => throw .Io

/-- Finish an earlier transaction under the lease. -/
def recoverPendingKind (configuration : Configuration) (kind : FileKind) (expected_size : Nat) :
    Action Unit :=
  transact (recoverAtomicKind configuration kind expected_size)

/-- Bytes of one stream write. -/
def stream_chunk : Nat := 16 * 1024

/-- Write the rest of a snapshot into the stream, every round at least one byte. -/
def writeChunks : Nat → Bytes → Action (Option FileFault)
  | 0, _ => return none
  | rounds + 1, rest =>
    if rest = [] then return none
    else do
      match operationFault (← file (.streamWrite (rest.take stream_chunk))) with
      | some fault => return some fault
      | none => writeChunks rounds (rest.drop stream_chunk)

def writeStageSnapshotOnce (bytes : Bytes) : Action (Option FileFault) := do
  match ← file .streamBegin with
  | some fault => return some fault
  | none =>
    match ← writeChunks bytes.length bytes with
    | some fault =>
      file .streamAbort
      return some fault
    | none =>
      match operationFault (← file .streamFinish) with
      | some fault =>
        file .streamAbort
        return some fault
      | none => return none

def writeStageSnapshotWithRetry (configuration : Configuration) (kind : FileKind) (bytes : Bytes) :
    Nat → Action Unit
  | 0 => throw .Io
  | attempts + 1 => do
      match ← writeStageSnapshotOnce bytes with
      | some fault =>
        if !retryablePrivateStreamFault fault || attempts == 0 then throw (mapOpenFault fault)
        else
          removeAtomicScratch .stage create_retry_attempts
          file .sleep
          writeStageSnapshotWithRetry configuration kind bytes attempts
      | none =>
        match ← pathSizeVisibleWithRetry .stage create_retry_attempts with
        | none => throw .Io
        | some staged_size =>
          if staged_size ≠ bytes.length then throw .Io
          else validateKindAt configuration kind .stage

/-- Write a snapshot as a whole. -/
def writeAtomicSave (configuration : Configuration) (kind : FileKind) (held : Bool)
    (bytes : Bytes) : Action Unit :=
  if !held then throw .Busy
  else transact do
    recoverAtomicKind configuration kind bytes.length
    writeStageSnapshotWithRetry configuration kind bytes create_retry_attempts
    publishStage configuration kind bytes.length

inductive ReadResult
  | ok (bytes : Bytes)
  | missing
  | wrong_size
  | io

/-- Read the rest of the target, every round at least one byte. -/
def readTargetRounds (length : Nat) : Nat → Bytes → Action ReadResult
  | 0, out => if length ≤ out.length then return .ok out else return .io
  | rounds + 1, out =>
    if length ≤ out.length then return .ok out
    else do
      match ← file (.readAt .target out.length (length - out.length)) with
      | .bytes data =>
        if data.length = 0 ∨ length - out.length < data.length then return .io
        else readTargetRounds length rounds (out ++ data)
      | .end | .failure _ => return .io

/-- The query of a read: whether the target is a directory, and its size. -/
def targetInfoWithRetry : Nat → Action (Option (Bool × Nat))
  | 0 => throw .Io
  | attempts + 1 => do
      match ← file (.info .target) with
      | .value is_dir size => return some (is_dir, size)
      | .missing => return none
      | .failure _ =>
        if attempts = 0 then throw .Io
        else
          file .sleep
          targetInfoWithRetry attempts

/-- Read the target, after an earlier transaction was finished. -/
def readTarget (configuration : Configuration) (kind : FileKind) (length : Nat) :
    Action ReadResult := do
  recoverPendingKind configuration kind length
  match ← targetInfoWithRetry create_retry_attempts with
  | none => return .missing
  | some (is_dir, size) =>
    if is_dir || size ≠ length then return .wrong_size
    else readTargetRounds length length []

def readExactSave (configuration : Configuration) (kind : FileKind) (held : Bool) (length : Nat) :
    Program (Reply BackendError FileCall.Value) ReadResult :=
  if !held then return .io
  else do
    match ← (readTarget configuration kind length).run with
    | .ok result => return result
    | .error _ => return .io

end R4OS.Persistence
