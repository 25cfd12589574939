import R4OS.Crash.Program
import R4OS.Update.Journal

/-!
# The shared recovery core

Rollback, forward continuation and cleanup of a journaled transaction, as client programs of the
recovery interface.  Persisting reports which slot and generation the journal was written under.
-/

namespace R4OS.Update

open Crash Text

/-- What a fingerprint probe of a path finds. -/
inductive PathState
  | match
  | not_found
  | other
  | io

/-- What stands under a path. -/
inductive PresenceState
  | file
  | other
  | not_found
  | io

/-- The answer of one checked mutation. -/
inductive MutationStatus
  | ok
  | conflict
  | io
  deriving DecidableEq

/-- The answer of a whole replay. -/
inductive ReplayStatus
  | ok
  | invalid
  | conflict
  | io

/-- The interface a recovery environment supplies. -/
inductive RecoveryIo
  | pathState (path : Bytes) (size : UInt64) (checksum : UInt32)
  | presence (path : Bytes)
  | rollbackPayload (entry : JournalPayload)
  | commitPayload (entry : JournalPayload)
  | cleanupPayload (entry : JournalPayload)
  | persist (journal : TransactionJournal)

/-- Where and under which generation a journal was persisted. -/
structure Stamp where
  slot : Nat
  journal_generation : UInt64

def TransactionJournal.stamp (journal : TransactionJournal) (stamp : Stamp) : TransactionJournal :=
  { journal with slot := stamp.slot, journal_generation := stamp.journal_generation, valid := true }

namespace RecoveryIo

/-- Answers of the interface.  A failed persist leaves the journal in memory as it was. -/
abbrev Answer : RecoveryIo → Type
  | .pathState _ _ _ => PathState
  | .presence _ => PresenceState
  | .rollbackPayload _ | .commitPayload _ | .cleanupPayload _ => MutationStatus
  | .persist _ => Option Stamp

end RecoveryIo

/-- Programs of the recovery interface. -/
abbrev Recovery := Program RecoveryIo.Answer

/-- One call of the recovery interface. -/
def RecoveryIo.perform (operation : RecoveryIo) : Recovery operation.Answer :=
  Program.perform operation

/-- Persist a journal.  The answer tells whether it is durable and returns the journal in memory. -/
def persist (journal : TransactionJournal) : Recovery (Bool × TransactionJournal) := do
  match ← RecoveryIo.perform (.persist journal) with
  | some stamp => return (true, journal.stamp stamp)
  | none => return (false, journal)

def TransactionJournal.setPayload (journal : TransactionJournal) (index : Nat)
    (entry : JournalPayload) : TransactionJournal :=
  { journal with payloads := journal.payloads.set index entry }

/-- Undo one payload on disk, where it was replaced at all. -/
def rollbackTarget (entry : JournalPayload) : Recovery MutationStatus :=
  if entry.replace_required then RecoveryIo.perform (.rollbackPayload entry)
  else return .ok

def markRolledBack (journal : TransactionJournal) (cursor : Nat) (entry : JournalPayload) :
    Recovery (Bool × TransactionJournal) :=
  if entry.rolled_back then return (true, journal)
  else persist (recount (journal.setPayload cursor { entry with committed := false, rolled_back := true }))

/-- Undo the payloads below the cursor, last one first. -/
def rollbackPayloads : Nat → TransactionJournal → Recovery (ReplayStatus × TransactionJournal)
  | 0, journal => return (.ok, journal)
  | cursor + 1, journal =>
    match journal.payloads[cursor]? with
    | none => return (.invalid, journal)
    | some entry => do
        match ← rollbackTarget entry with
        | .conflict => return (.conflict, journal)
        | .io => return (.io, journal)
        | .ok =>
          match ← markRolledBack journal cursor entry with
          | (false, journal) => return (.io, journal)
          | (true, journal) => rollbackPayloads cursor journal

/-- Replay an interrupted transaction back to its state before the update. -/
def rollbackToTerminal (journal : TransactionJournal) :
    Recovery (ReplayStatus × TransactionJournal) := do
  if !journalValid journal || journal.phase == .applied || journal.phase == .cleanup then
    return (.invalid, journal)
  else if journal.phase == .rolled_back then return (.ok, journal)
  else
    match ← persist (recount { journal with phase := .rollback, rollback_markers_present := true }) with
    | (false, journal) => return (.io, journal)
    | (true, journal) =>
      match ← rollbackPayloads journal.payload_count journal with
      | (.ok, journal) =>
        match ← persist (recount { journal with phase := .rolled_back }) with
        | (true, journal) => return (.ok, journal)
        | (false, journal) => return (.io, journal)
      | failed => return failed

/-- Commit one payload and persist its marker. -/
def commitOne (journal : TransactionJournal) (index : Nat) (entry : JournalPayload) :
    Recovery (ReplayStatus × TransactionJournal) := do
  match ← RecoveryIo.perform (.commitPayload entry) with
  | .conflict => return (.conflict, journal)
  | .io => return (.io, journal)
  | .ok =>
    match ← persist
        (recount (journal.setPayload index { entry with committed := true, rolled_back := false })) with
    | (true, journal) => return (.ok, journal)
    | (false, journal) => return (.io, journal)

/-- Commit the last `remaining` payloads in order. -/
def commitPayloads : Nat → TransactionJournal → Recovery (ReplayStatus × TransactionJournal)
  | 0, journal => return (.ok, journal)
  | remaining + 1, journal =>
    match journal.payloads[journal.payload_count - (remaining + 1)]? with
    | none => return (.invalid, journal)
    | some entry =>
      if entry.committed then commitPayloads remaining journal
      else do
        match ← commitOne journal (journal.payload_count - (remaining + 1)) entry with
        | (.ok, journal) => commitPayloads remaining journal
        | failed => return failed

/-- Check that every target carries its new content. -/
def verifyTargets : List JournalPayload → Recovery ReplayStatus
  | [] => return .ok
  | entry :: rest => do
      match ← RecoveryIo.perform (.pathState entry.targetText entry.size entry.checksum) with
      | .match => verifyTargets rest
      | .not_found | .other => return .conflict
      | .io => return .io

/-- Continue a fully staged restart batch forward. -/
def resumeBatchForward (journal : TransactionJournal) :
    Recovery (ReplayStatus × TransactionJournal) := do
  if !journalValid journal || !journal.batch then return (.invalid, journal)
  else if journal.phase == .post_boot then return (.ok, journal)
  else if journal.phase != .stage && journal.phase != .commit then return (.invalid, journal)
  else
    match ← persist (recount { journal with phase := .commit }) with
    | (false, journal) => return (.io, journal)
    | (true, journal) =>
      match ← commitPayloads journal.payload_count journal with
      | (.ok, journal) =>
        match ← verifyTargets journal.payloads with
        | .ok =>
          match ← persist (recount { journal with phase := .post_boot }) with
          | (true, journal) => return (.ok, journal)
          | (false, journal) => return (.io, journal)
        | failed => return (failed, journal)
      | failed => return failed

end R4OS.Update
