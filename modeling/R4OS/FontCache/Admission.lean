import R4OS.FontCache.Cleanup
import R4OS.Selection.Least

/-!
# Admission to the font cache

Room for a font is made in two passes: expired entries go first, then the least recently used ones
until the reservation fits.  The entry of the font itself is protected, and an unavailable clock never
makes an entry look old.
-/

namespace R4OS.FontCache

open Numeric Selection Text

/-- Whether an entry has reached an age.  Zero stands for an unavailable clock on either side. -/
def expired (last_access now max_age : UInt64) : Bool :=
  0 < max_age && 0 < now && 0 < last_access && last_access ≤ now && max_age ≤ now - last_access

/-- Whether an entry is evicted before another one. -/
def lessEvictionCandidate (left right : Metadata) : Bool :=
  if left.last_access != right.last_access then left.last_access < right.last_access
  else decide (left.id.toList < right.id.toList)

def candidateSlot (selected : List Nat) (preserve_id : Option Digest) (now max_age : UInt64)
    (expired_only : Bool) (slot : Metadata × Nat) : Bool :=
  slot.1.occupied && !selected.contains slot.2 && preserve_id != some slot.1.id &&
    !(expired_only && !expired slot.1.last_access now max_age)

/-- The slot that is evicted next. -/
def oldestCandidate (catalog : Catalog) (selected : List Nat) (preserve_id : Option Digest)
    (now max_age : UInt64) (expired_only : Bool) : Option Nat :=
  (least (candidateSlot selected preserve_id now max_age expired_only)
    (fun left right => lessEvictionCandidate left.1 right.1) catalog.entries.zipIdx).map Prod.snd

/-- Whether a reservation does not fit beside what is left. -/
def exceedsLimits (bytes : UInt64) (entries : Nat) (reservation : Reservation) (policy : Policy) :
    Bool :=
  policy.max_entry_count < entries || policy.max_entry_count - entries < reservation.entries ||
    policy.max_total_bytes < bytes || policy.max_total_bytes - bytes < reservation.bytes

/-- A plan in the making with the slots it has selected. -/
structure Planning where
  selected : List Nat := []
  plan : CleanupPlan

def CleanupPlan.append (plan : CleanupPlan) (entry : Metadata) (reason : CleanupReason) :
    Except CacheError CleanupPlan :=
  if max_entries ≤ plan.actions.length then .error .CatalogFull
  else match objectPath entry.id with
    | .error error => .error error
    | .ok object_path =>
      .ok { plan with actions := plan.actions ++ [{
              id := entry.id
              object_path := object_path
              size := entry.size
              last_access := entry.last_access
              reason := reason }] }

/-- Select one slot. -/
def Planning.select (planning : Planning) (catalog : Catalog) (index : Nat)
    (reason : CleanupReason) : Except CacheError Planning :=
  let entry := catalog.entries.getD index {}
  match planning.plan.append entry reason with
  | .error error => .error error
  | .ok plan =>
    .ok { selected := index :: planning.selected
          plan := { plan with
            resulting_bytes := saturatingSub plan.resulting_bytes entry.size
            resulting_entries := plan.resulting_entries - 1 } }

/-- Select every expired entry, oldest first.  The table bounds the number of rounds. -/
def selectExpired (catalog : Catalog) (preserve_id : Option Digest) (now max_age : UInt64) :
    Nat → Planning → Except CacheError Planning
  | 0, _ => .error .CatalogFull
  | rounds + 1, planning =>
    match oldestCandidate catalog planning.selected preserve_id now max_age true with
    | none => .ok planning
    | some index =>
      match planning.select catalog index .expired with
      | .error error => .error error
      | .ok next => selectExpired catalog preserve_id now max_age rounds next

/-- Which limit an eviction is for. -/
def evictionReason (plan : CleanupPlan) (reservation : Reservation) (policy : Policy) :
    CleanupReason :=
  if policy.max_entry_count < plan.resulting_entries + reservation.entries then .entry_limit
  else .size_limit

/-- Select the least recently used entries until the reservation fits. -/
def evictUntilFits (catalog : Catalog) (policy : Policy) (now : UInt64) (reservation : Reservation)
    (preserve_id : Option Digest) : Nat → Planning → Except CacheError Planning
  | 0, _ => .error .CatalogFull
  | rounds + 1, planning =>
    if exceedsLimits planning.plan.resulting_bytes planning.plan.resulting_entries reservation
        policy then
      match oldestCandidate catalog planning.selected preserve_id now 0 false with
      | none => .error .ReservationTooLarge
      | some index =>
        match planning.select catalog index
            (evictionReason planning.plan reservation policy) with
        | .error error => .error error
        | .ok next => evictUntilFits catalog policy now reservation preserve_id rounds next
    else .ok planning

/-- Count the reservation among the resulting figures. -/
def reserve (plan : CleanupPlan) (reservation : Reservation) : Except CacheError CleanupPlan :=
  match checkedAdd plan.resulting_bytes reservation.bytes with
  | none => .error .ReservationTooLarge
  | some bytes =>
    .ok { plan with
      resulting_bytes := bytes
      resulting_entries := plan.resulting_entries + reservation.entries }

/-- Plan which entries make room for a reservation. -/
def planCleanup (catalog : Catalog) (policy : Policy) (now : UInt64) (reservation : Reservation)
    (preserve_id : Option Digest) : Except CacheError CleanupPlan :=
  if !policy.valid || policy.max_total_bytes < reservation.bytes ||
      policy.max_entry_count < reservation.entries then .error .ReservationTooLarge
  else if !catalog.validate then .error .InvalidMetadata
  else
    let start : Planning :=
      { plan :=
          { resulting_bytes := catalog.total_bytes
            resulting_entries := catalog.count
            reserved_bytes := reservation.bytes
            reserved_entries := reservation.entries } }
    match selectExpired catalog preserve_id now policy.max_age_seconds (max_entries + 1) start with
    | .error error => .error error
    | .ok planning =>
      match evictUntilFits catalog policy now reservation preserve_id (max_entries + 1)
          planning with
      | .error error => .error error
      | .ok planning => reserve planning.plan reservation

/-- Directory of staged files. -/
def staging_path : Bytes := ascii "C:\\R4OS\\Temp\\Klickifax\\Cache\\Fonts\\Staging\\"

def catalog_path : Bytes := ascii "C:\\R4OS\\Temp\\Klickifax\\Cache\\Fonts\\Catalog.R4S"

/-- The sixteen hexadecimal digits of a transaction. -/
def transactionHex (transaction_id : UInt64) : Bytes :=
  (List.range 16).map fun digit => hexDigit (transaction_id.toNat / 16 ^ (15 - digit) % 16)

def objectStagePath (id : Digest) (transaction_id : UInt64) : Except CacheError ObjectPath :=
  if transaction_id = 0 then .error .InvalidTransaction
  else fixedPath (staging_path ++ digestHex id ++ ascii "." ++ transactionHex transaction_id ++
    ascii ".FONT.PART")

def catalogStagePath (transaction_id : UInt64) : Except CacheError ObjectPath :=
  if transaction_id = 0 then .error .InvalidTransaction
  else fixedPath (staging_path ++ ascii "Catalog." ++ transactionHex transaction_id ++
    ascii ".R4S.PART")

/-- The files of one commit. -/
structure AtomicPlan where
  transaction_id : UInt64
  disposition : Disposition
  id : Digest
  expected_size : UInt64
  expected_checksum : Digest
  object_stage : ObjectPath := default
  object_target : ObjectPath
  catalog_stage : ObjectPath
  catalog_target : ObjectPath
  write_object : Bool

def neededStage (id : Digest) (transaction_id : UInt64) : Disposition → Except CacheError ObjectPath
  | .new_object => objectStagePath id transaction_id
  | .duplicate => .ok default

def planAtomicCommit (catalog : Catalog) (candidate : Prepared) (transaction_id : UInt64) :
    Except CacheError AtomicPlan :=
  if transaction_id = 0 then .error .InvalidTransaction
  else do
    let disposition ← catalog.classify candidate
    let object_target ← objectPath candidate.metadata.id
    let catalog_stage ← catalogStagePath transaction_id
    let catalog_target ← fixedPath catalog_path
    let object_stage ← neededStage candidate.metadata.id transaction_id disposition
    return {
      transaction_id := transaction_id
      disposition := disposition
      id := candidate.metadata.id
      expected_size := candidate.metadata.size
      expected_checksum := candidate.metadata.checksum
      object_stage := object_stage
      object_target := object_target
      catalog_stage := catalog_stage
      catalog_target := catalog_target
      write_object := disposition = .new_object }

/-- The plans that admit a font. -/
structure AdmissionPlan where
  disposition : Disposition
  cleanup : CleanupPlan
  atomic : AtomicPlan

/-- What a font of a disposition needs. -/
def reservationOf (candidate : Prepared) : Disposition → Reservation
  | .new_object => { bytes := candidate.metadata.size, entries := 1 }
  | .duplicate => {}

def planAdmission (catalog : Catalog) (candidate : Prepared) (policy : Policy) (now : UInt64)
    (transaction_id : UInt64) : Except CacheError AdmissionPlan :=
  match catalog.classify candidate with
  | .error error => .error error
  | .ok disposition =>
    match planCleanup catalog policy now (reservationOf candidate disposition)
        (some candidate.metadata.id) with
    | .error error => .error error
    | .ok cleanup =>
      match planAtomicCommit catalog candidate transaction_id with
      | .error error => .error error
      | .ok atomic =>
        .ok { disposition := disposition, cleanup := cleanup, atomic := atomic }

end R4OS.FontCache
