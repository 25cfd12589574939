import R4OS.Crash.Fallible
import R4OS.SystemInventory.RoundTrip

/-!
# Application removal

Removal plans, the durable record of the removal in progress, the receipts of finished removals, and
the operation that carries a plan out.  It can be invoked again after any interruption.
-/

namespace R4OS.Removal

open Crash Path SystemInventory Text
open Update.Batch (eqlIgnoreCase validToken validSemanticVersion)

/-- Why a removal stops. -/
inductive RemoveError
  | RemovePlan
  | RemoveJournal
  | RemoveReceipt
  | RemoveRequestChanged
  | RemoveTargetReappeared
  | RemoveForeignTransaction
  | RemoveReadback
  | RemoveFileSize
  | RemoveFileRead
  | RemoveWriteReadback
  | RemoveJournalConflict
  | RemoveGenerationExhausted
  | RemoveProcessState
  | RemoveInventory
  | RemoveTarget
  | RemoveInventoryChanged
  | RemoveNotApplication
  | RemoveInventoryMissing
  | RemoveIdentityChanged
  | RemoveTargetChanged
  | RemoveUnsupported
  | RemoveDeleteConflict
  | RemoveInventoryBackupConflict
  | RemoveInventoryCleanup
  | RemoveInventoryRender
  | RemoveInventoryStageConflict
  | RemoveInventoryReadback
  | AssetInfo
  | AssetMissing
  | AssetType
  | AssetIdentity
  | AssetSize
  | AssetRead
  | OutOfMemory

/-- Size, hash and checksum of a file. -/
structure Digest where
  size : UInt64
  sha256 : Vector UInt8 64
  checksum : UInt32
  deriving DecidableEq

/-- What is to be removed. -/
structure Plan where
  schema : UInt32 := 1
  request_id : Bytes
  target : Bytes
  name : Bytes
  version : Bytes
  previous : Digest

/-- Hexadecimal digits of either case. -/
def isHex (byte : UInt8) : Bool :=
  isDigit byte || (chr 'A' ≤ toUpper byte && toUpper byte ≤ chr 'F')

def startsWithIgnoreCase (value marker : Bytes) : Bool :=
  marker.length ≤ value.length && eqlIgnoreCase (value.take marker.length) marker

/-- Applications lie on a drive outside the boot directory. -/
def applicationTarget (value : Bytes) : Bool :=
  (segments value).all (fun segment => segment ≠ ascii "." && segment ≠ ascii "..") &&
    !(value.head? = some (chr '/') && 1024 < value.length + 2) &&
    match AbsoluteFilePath.parse
      (if value.head? = some (chr '/') then ascii "C:" ++ value else value) with
    | .ok path => endsWithIgnoreCase path (ascii ".R4X") &&
        !startsWithIgnoreCase path (ascii "C:\\BOOT\\")
    | .error _ => false

namespace Plan

/-- The validity rules of a plan. -/
def validate (self : Plan) : Except RemoveError Unit :=
  if self.schema = 1 ∧ self.request_id.length = 64 ∧ applicationTarget self.target ∧
      validToken self.name component_name_max_bytes ∧ validSemanticVersion self.version ∧
      self.previous.size ≠ 0 ∧ self.previous.size.toNat ≤ 2 ^ 32 - 1 ∧
      self.request_id.all isHex ∧ self.previous.sha256.all isHex then .ok ()
  else .error .RemovePlan

/-- Two plans of one removal. -/
def same (self other : Plan) : Bool :=
  self.schema = other.schema && self.request_id = other.request_id &&
    targetEquals self.target other.target && eqlIgnoreCase self.name other.name &&
    self.version = other.version && self.previous = other.previous

end Plan

/-- How far a removal has come. -/
inductive Phase
  | prepared
  | payload_removed
  | inventory_removed
  | completed
  | cancelled
  deriving DecidableEq

/-- The durable record of a removal. -/
structure Record where
  schema : UInt32 := 1
  generation : UInt64 := 0
  plan : Plan
  phase : Phase := .prepared
  inventory_before : Option Digest := none
  inventory_after : Option Digest := none

/-- Whether a removal is finished. -/
def Record.terminal (self : Record) : Bool := self.phase = .completed || self.phase = .cancelled

/-- The validity rules of a record. -/
def Record.validate (self : Record) : Except RemoveError Unit :=
  if self.schema ≠ 1 ∨ self.generation = 0 ∨
      self.inventory_before.isNone ≠ self.inventory_after.isNone then .error .RemoveJournal
  else self.plan.validate

/-- What an invocation reports. -/
inductive State
  | waiting_for_close
  | removed
  | cancelled
  deriving DecidableEq

structure Outcome where
  state : State
  generation : UInt64

/-- The identity embedded in an application. -/
structure Identity where
  kind : ComponentKind
  name : Bytes
  version : Bytes

/-- An application file. -/
structure Image where
  /-- Missing when the file is no program artifact. -/
  identity : Option Identity
  digest : Digest

/-- The files of the installed inventory. -/
inductive InventoryFile
  | current
  | stage
  | backup
  deriving DecidableEq

/-- The durable state. -/
structure Disk where
  /-- The last record that was persisted. -/
  stored : Option Record
  /-- The receipt of each archived request. -/
  receipts : Bytes → Option Record
  /-- Application files, under their folded targets. -/
  payload : Bytes → Option Image
  files : InventoryFile → Option Bytes

/-- The file a target names. -/
def Disk.image (disk : Disk) (target : Bytes) : Option Image := disk.payload (target.map foldTarget)

/-- Bytes of the largest inventory. -/
def max_bytes : Nat := 64 * 1024

def parseInventory : Option Bytes → Except RemoveError Inventory
  | none => .error .RemoveInventory
  | some text =>
    if text = [] ∨ max_bytes < text.length then .error .RemoveFileSize
    else match Inventory.parse text with
      | none => .error .RemoveInventory
      | some inventory => .ok inventory

/-- Take one entry into account.  Everything that has the target or the name of the application must
be its exact entry, and occur once. -/
def matchEntry (target : Bytes) (plan : Plan) (found : Option Entry) (candidate : Entry) :
    Except RemoveError (Option Entry) :=
  if targetEquals candidate.target target ||
      (candidate.kind = .r4x && eqlIgnoreCase candidate.name plan.name) then
    if found.isSome || candidate.kind ≠ .r4x || !eqlIgnoreCase candidate.name plan.name ||
        !targetEquals candidate.target target || candidate.version ≠ plan.version then
      .error .RemoveInventoryChanged
    else if candidate.module_role.isSome then .error .RemoveNotApplication
    else .ok (some candidate)
  else .ok found

def entry (inventory : Inventory) (plan : Plan) : Except RemoveError (Option Entry) := do
  let target ← match canonicalInventoryTarget 1024 plan.target with
    | none => .error .RemoveTarget
    | some target => .ok target
  inventory.entries.foldlM (matchEntry target plan) none

/-- The inventory without one entry. -/
def removeExact (inventory : Inventory) (kind : ComponentKind) (name target : Bytes) :
    Option Inventory :=
  let exact := fun entry : Entry =>
    decide (entry.kind = kind) && eqlIgnoreCase entry.name name && targetEquals entry.target target
  if inventory.validate && 1 < inventory.entries.length && inventory.entries.countP exact = 1 then
    some { inventory with entries := inventory.entries.eraseP exact }
  else none

/-- The calls of a removal. -/
inductive Operation
  /-- Read the newest record. -/
  | load
  | readReceipt (id : Bytes)
  | ensureParents
  | writeReceipt (record : Record)
  /-- Write a record into the older slot. -/
  | store (record : Record)
  | cancelled
  | running (plan : Plan)
  /-- Whether there is no file. -/
  | absent (plan : Plan)
  /-- Compare the application with the plan. -/
  | admitPlan (plan : Plan)
  /-- Delete the application if its size and checksum are as planned. -/
  | delete (plan : Plan)
  | readFile (file : InventoryFile)
  | writeFile (file : InventoryFile) (text : Bytes)
  | deleteFile (file : InventoryFile)
  /-- Put the stage in place of the inventory, which becomes the backup. -/
  | replace

/-- What a call returns when it succeeds. -/
def Operation.Value : Operation → Type
  | load | readReceipt _ => Option Record
  | cancelled | running _ | absent _ => Bool
  | readFile _ => Option Bytes
  | ensureParents | writeReceipt _ | store _ | admitPlan _ | delete _ | writeFile _ _ | deleteFile _
  | replace => Unit

abbrev Removing (Result : Type) : Type := Fallible RemoveError Operation.Value Result

/-- One call, whose error stops the removal. -/
def call (operation : Operation) : Removing operation.Value := Fallible.call operation

/-- One call, whose error is ignored. -/
def attempt (operation : Operation) : Removing Unit := Fallible.attempt operation

/-- Read a receipt. -/
def history (id : Bytes) : Removing (Option Record) := do
  require (id.length = 64 && id.all isHex) .RemovePlan
  match ← call (.readReceipt id) with
  | none => return none
  | some record =>
    require (record.terminal && id = record.plan.request_id) .RemoveReceipt
    return some record

/-- Keep the receipt of a finished removal. -/
def archive (record : Record) : Removing Unit := do
  require record.terminal .RemoveReceipt
  call .ensureParents
  match ← history record.plan.request_id with
  | some old => require (old.plan.same record.plan && old.phase = record.phase) .RemoveReceipt
  | none => call (.writeReceipt record)

/-- Make a record durable under the next generation. -/
def persist (record : Record) : Removing Record := do
  require (record.generation.toNat ≠ 2 ^ 64 - 1) .RemoveGenerationExhausted
  let record := { record with generation := record.generation + 1 }
  computed record.validate
  call (.store record)
  return record

/-- Whether the durable record belongs to a request. -/
def recordExists (id : Bytes) : Removing Bool := do
  match ← call .load with
  | none => return false
  | some current => return current.plan.request_id = id

/-- Whether the inventory has no entry of the application. -/
def inventoryAbsent (plan : Plan) : Removing Bool := do
  let text ← call (.readFile .current)
  let inventory ← computed (parseInventory text)
  let found ← computed (entry inventory plan)
  return found.isNone

def checksum (text : Bytes) : UInt32 :=
  text.foldl (fun sum byte => (sum ^^^ byte.toUInt32) * 16777619) 2166136261

section Inventory

variable (sha256 : Bytes → Vector UInt8 64)

def digest (text : Bytes) : Digest where
  size := UInt64.ofNat text.length
  sha256 := sha256 text
  checksum := checksum text

def matched (file : InventoryFile) (expected : Digest) : Removing Bool := do
  return (← call (.readFile file)).any fun text => expected = digest sha256 text

/-- Delete a file of known content. -/
def cleanup (file : InventoryFile) (expected : Digest) : Removing Unit := do
  if (← call (.readFile file)).isSome then
    require (← matched sha256 file expected) .RemoveInventoryBackupConflict
    call (.deleteFile file)
    require (← call (.readFile file)).isNone .RemoveInventoryCleanup

/-- Write the stage unless it already has the content. -/
def stageInventory (updated : Bytes) : Removing Unit := do
  if (← call (.readFile .stage)).isNone then
    call (.writeFile .stage updated)
  else
    require (← matched sha256 .stage (digest sha256 updated)) .RemoveInventoryStageConflict

/-- Keep both digests of an inventory change in the record before the change. -/
def admitInventory (record : Record) (before after : Digest) : Removing Record := do
  if record.inventory_before.isNone then
    let stage ← call (.readFile .stage)
    let backup ← call (.readFile .backup)
    require (stage.isNone && backup.isNone) .RemoveInventoryBackupConflict
    persist { record with inventory_before := some before, inventory_after := some after }
  else return record

def replaceInventory (record : Record) (current updated : Bytes) : Removing Record := do
  let record ← admitInventory record (digest sha256 current) (digest sha256 updated)
  stageInventory sha256 updated
  attempt .replace
  require (← matched sha256 .current (digest sha256 updated)) .RemoveInventoryReadback
  cleanup sha256 .backup (digest sha256 current)
  cleanup sha256 .stage (digest sha256 updated)
  return record

def removeEntry (record : Record) (inventory : Inventory) (current : Bytes) : Removing Record := do
  match ← computed (entry inventory record.plan) with
  | none => return record
  | some old =>
    match removeExact inventory .r4x old.name old.target with
    | none => throw .RemoveInventoryChanged
    | some remaining =>
      match remaining.render max_bytes with
      | none => throw .RemoveInventoryRender
      | some updated => replaceInventory sha256 record current updated

/-- Remove the entry of the application, or finish an interrupted replacement. -/
def removeInventory (record : Record) : Removing Record := do
  let text ← call (.readFile .current)
  let inventory ← computed (parseInventory text)
  let current := text.getD []
  match record.inventory_after with
  | none => removeEntry sha256 record inventory current
  | some after =>
    if after = digest sha256 current then do
      cleanup sha256 .backup (record.inventory_before.getD after)
      cleanup sha256 .stage after
      return record
    else do
      require (record.inventory_before = some (digest sha256 current)) .RemoveInventoryChanged
      removeEntry sha256 record inventory current

end Inventory

/-- Whether the application and its entry are both gone. -/
def removedBoth (plan : Plan) : Removing Bool := do
  let gone : Bool ← call (.absent plan)
  if gone then inventoryAbsent plan else return false

/-- The answer to a plan whose removal is finished already. -/
def repeated (plan : Plan) (finished : Record) : Removing Outcome := do
  if finished.phase = .cancelled then
    return { state := .cancelled, generation := finished.generation }
  else
    require (← removedBoth plan) .RemoveTargetReappeared
    return { state := .removed, generation := finished.generation }

/-- Whether the record of a plan is durable already. -/
def admittedBefore (plan : Plan) (record : Record) : Removing Bool :=
  if record.generation = 0 then return false else recordExists plan.request_id

/-- Admit a plan and make its record durable, unless that was done before. -/
def admission (plan : Plan) (record : Record) : Removing Record := do
  if ← admittedBefore plan record then
    return record
  else
    -- Nothing is destroyed before the plan is durable.
    call (.admitPlan plan)
    persist record

/-- Complete a removal. -/
def finish (plan : Plan) (record : Record) : Removing Outcome := do
  require (← removedBoth plan) .RemoveReadback
  let record ← persist { record with phase := .completed }
  return { state := .removed, generation := record.generation }

section Execute

variable (sha256 : Bytes → Vector UInt8 64)

/-- Remove the inventory entry of a deleted application. -/
def settleInventory (plan : Plan) (record : Record) : Removing Outcome := do
  if record.phase = .payload_removed then
    require (← call (.absent plan)) .RemoveTargetReappeared
    let record ← removeInventory sha256 record
    let record ← persist { record with phase := .inventory_removed }
    finish plan record
  else finish plan record

/-- The application is gone. -/
def settlePayload (plan : Plan) (record : Record) : Removing Outcome := do
  require (← call (.absent plan)) .RemoveReadback
  let record ← persist { record with phase := .payload_removed }
  settleInventory sha256 plan record

/-- Whether the request is cancelled while the application is still there. -/
def cancelledInTime (plan : Plan) : Removing Bool := do
  let asked : Bool ← call .cancelled
  if asked then
    let gone : Bool ← call (.absent plan)
    return !gone
  else return false

/-- Delete an application that is still there, unless it is running. -/
def deletePayload (plan : Plan) (record : Record) : Removing Outcome := do
  call (.admitPlan plan)
  let running : Bool ← call (.running plan)
  if running then
    return { state := .waiting_for_close, generation := record.generation }
  else
    -- The call compares size and checksum once more.
    call (.delete plan)
    settlePayload sha256 plan record

/-- Remove the application under its prepared record. -/
def removePayload (plan : Plan) (record : Record) : Removing Outcome := do
  let cancelled ← cancelledInTime plan
  if cancelled then
    let record ← persist { record with phase := .cancelled }
    return { state := .cancelled, generation := record.generation }
  else
    let running : Bool ← call (.running plan)
    if running then
      return { state := .waiting_for_close, generation := record.generation }
    else
      let gone : Bool ← call (.absent plan)
      if gone then settlePayload sha256 plan record else deletePayload sha256 plan record

/-- Continue from the phase of an admitted record. -/
def resume (plan : Plan) (record : Record) : Removing Outcome :=
  if record.phase = .prepared then removePayload sha256 plan record
  else settleInventory sha256 plan record

/-- Carry out a plan as far as it goes now. -/
def execute (plan : Plan) : Removing Outcome := do
  computed plan.validate
  let record := (← call .load).getD { plan }
  match ← history plan.request_id with
  | some prior =>
    require (prior.plan.same plan) .RemoveRequestChanged
    repeated plan prior
  | none =>
    if !record.plan.same plan then
      require record.terminal .RemoveForeignTransaction
      archive record
      let record ← admission plan { generation := record.generation, plan }
      resume sha256 plan record
    else if record.terminal then
      repeated plan record
    else
      let record ← admission plan record
      resume sha256 plan record

end Execute

/-- The application is the one of the plan and still has its entry. -/
def admitted (disk : Disk) (plan : Plan) : Except RemoveError Unit := do
  let inventory ← parseInventory (disk.files .current)
  if (← entry inventory plan).isNone then throw .RemoveInventoryMissing
  match disk.image plan.target with
  | none => throw .AssetMissing
  | some image =>
    match image.identity with
    | none => throw .AssetIdentity
    | some identity =>
      if identity.kind ≠ .r4x || !eqlIgnoreCase identity.name plan.name ||
          identity.version ≠ plan.version then throw .RemoveIdentityChanged
      else if plan.previous ≠ image.digest then throw .RemoveTargetChanged

/-- The application has the planned size and checksum. -/
def deletable (disk : Disk) (plan : Plan) : Bool :=
  (disk.image plan.target).any fun image =>
    image.digest.size = plan.previous.size && image.digest.checksum = plan.previous.checksum

/-- The durable effect of a call. -/
def effect (disk : Disk) : Operation → Disk
  | .writeReceipt record =>
    { disk with receipts := Function.update disk.receipts record.plan.request_id (some record) }
  | .store record => { disk with stored := some record }
  | .delete plan =>
    if deletable disk plan then
      { disk with payload := Function.update disk.payload (plan.target.map foldTarget) none }
    else disk
  | .writeFile file text => { disk with files := Function.update disk.files file (some text) }
  | .deleteFile file => { disk with files := Function.update disk.files file none }
  | .replace =>
    if (disk.files .stage).isSome then
      { disk with files := fun
          | .current => disk.files .stage
          | .backup => disk.files .current
          | .stage => none }
    else disk
  | _ => disk

/-- The answer of a call that is carried out.  The user may cancel and the application may run at
any time. -/
def Answers (disk : Disk) :
    (operation : Operation) → Reply RemoveError Operation.Value operation → Prop
  | .load, reply => reply = .ok disk.stored
  | .readReceipt id, reply => reply = .ok (disk.receipts id)
  | .cancelled, reply => ∃ asked, reply = .ok asked
  | .running _, reply => ∃ running, reply = .ok running
  | .absent plan, reply => reply = .ok (disk.image plan.target).isNone
  | .admitPlan plan, reply => reply = admitted disk plan
  | .delete plan, reply =>
    reply = if deletable disk plan then .ok () else .error .RemoveDeleteConflict
  | .readFile file, reply => reply = .ok (disk.files file)
  | .ensureParents, reply | .writeReceipt _, reply | .store _, reply | .writeFile _ _, reply
  | .deleteFile _, reply | .replace, reply => reply = .ok ()

/-- A call of `delete`. -/
structure Deletion where
  plan : Plan
  /-- The plans admitted before in this invocation. -/
  admits : List Plan
  /-- The durable record at the call. -/
  stored : Option Record

/-- What an invocation reported. -/
structure Report where
  plan : Plan
  state : State
  /-- The disk when it returned. -/
  disk : Disk

/-- The disk and what happened so far. -/
structure World where
  disk : Disk
  /-- The plans admitted in this invocation. -/
  admits : List Plan
  deletions : List Deletion
  reports : List Report

/-- Keep the admissions and the calls of `delete`. -/
def World.note (world : World) :
    (operation : Operation) → Reply RemoveError Operation.Value operation → World
  | .admitPlan plan, .ok _ => { world with admits := plan :: world.admits }
  | .delete plan, _ =>
    { world with deletions := ⟨plan, world.admits, world.disk.stored⟩ :: world.deletions }
  | _, _ => world

/-- The calls of a removal.  Every one except `cancelled` may also fail, before or after it takes
effect. -/
def device : Device (Reply RemoveError Operation.Value) World :=
  fun operation before reply after =>
    ∃ disk, after = { before.note operation reply with disk } ∧
      ((Answers before.disk operation reply ∧ disk = effect before.disk operation) ∨
        (operation ≠ .cancelled ∧ (∃ error, reply = .error error) ∧
          (disk = before.disk ∨ disk = effect before.disk operation)))

/-- Add what an invocation returned to the reports. -/
def World.report (world : World) (plan : Plan) : Option (Except RemoveError Outcome) → World
  | some (.ok outcome) =>
    { world with reports := ⟨plan, outcome.state, world.disk⟩ :: world.reports }
  | _ => world

/-- The worlds that invocations allowed by a condition can reach.  Each invocation may stop anywhere.
Other programs change applications and the inventory between invocations. -/
inductive Reachable (sha256 : Bytes → Vector UInt8 64) (Allowed : Plan → Disk → Prop) : World → Prop
  | fresh (payload : Bytes → Option Image) (files : InventoryFile → Option Bytes) :
      Reachable sha256 Allowed
        { disk := { stored := none, receipts := fun _ => none, payload, files }
          admits := [], deletions := [], reports := [] }
  | other {world : World} (reached : Reachable sha256 Allowed world)
      (payload : Bytes → Option Image) (files : InventoryFile → Option Bytes) :
      Reachable sha256 Allowed { world with disk := { world.disk with payload, files } }
  | invoke {before after : World} (reached : Reachable sha256 Allowed before) (plan : Plan)
      {outcome : Option (Except RemoveError Outcome)} (allowed : Allowed plan before.disk)
      (execution : Execution device (execute sha256 plan).run { before with admits := [] } outcome
        after) : Reachable sha256 Allowed (after.report plan outcome)

end R4OS.Removal
