import Mathlib.Algebra.BigOperators.Fin
import R4OS.WebCache.Policy

/-!
# The web response cache

Eight slots of stored responses under one byte budget.  A lookup pins what it found until its handle is
released; entries that are invalidated while they are pinned are retired and freed with the last pin.
-/

namespace R4OS.WebCache

open Text

/-- Slots of a cache. -/
def max_entries : Nat := 8

def max_key_bytes : Nat := 16 * 1024

/-- Bytes of the stored header lines. -/
def max_header_bytes : Nat := 8 * 1024

/-- Pins that an entry may have. -/
def max_pins : Nat := 2 ^ 16 - 1

/-- How a request wants the cache to be used. -/
inductive Mode
  | normal
  | no_store
  | reload
  | no_cache
  | force_cache
  | only_if_cached
  deriving DecidableEq

/-- Sizes that a cache accepts. -/
structure Limits where
  object_bytes : Nat := 128 * 1024
  total_bytes : Nat := 512 * 1024

/-- What a response is stored under. -/
structure Key where
  url : Bytes
  context : Bytes
  headers : Bytes
  deriving DecidableEq

/-- A borrowed entry. -/
structure Handle where
  index : Nat
  identity : Nat
  deriving DecidableEq

/-- What a lookup tells its caller to do. -/
inductive Action
  | miss
  | hit
  | revalidate
  | only_miss

/-- The answer of a lookup. -/
structure Lookup where
  action : Action
  handle : Option Handle := none

/-- What a handle shows. -/
structure View where
  headers : Bytes
  body : Bytes
  identity : Nat
  age_seconds : Nat

/-- Counters of a cache. -/
structure Stats where
  hits : Nat := 0
  misses : Nat := 0
  validations : Nat := 0
  stores : Nat := 0
  evictions : Nat := 0

/-- A slot: the three parts of the key, the header lines and the body behind each other. -/
structure Entry where
  data : Bytes := []
  ends : Fin 5 → Nat := fun _ => 0
  identity : Nat := 0
  token : Nat := 0
  used : Nat := 0
  pins : Nat := 0
  retired : Bool := false
  stored_ms : Nat := 0
  initial_age_ms : Nat := 0
  lifetime_ms : Nat := 0
  validate : Bool := false

namespace Entry

/-- One part of the data. -/
def part (entry : Entry) (index : Fin 5) : Bytes :=
  (entry.data.take (entry.ends index)).drop (if index = 0 then 0 else entry.ends (index - 1))

def matchesKey (entry : Entry) (key : Key) : Bool :=
  entry.identity ≠ 0 && !entry.retired && entry.part 0 == key.url && entry.part 1 == key.context &&
    entry.part 2 == key.headers

def age (entry : Entry) (now_ms : Nat) : Nat :=
  addSaturating entry.initial_age_ms (now_ms - entry.stored_ms)

end Entry

structure Cache where
  limits : Limits
  entries : Fin max_entries → Entry := fun _ => {}
  bytes : Nat := 0
  serial : Nat := 0
  next_identity : Nat := 1
  stats : Stats := {}

/-- Failures of a store. -/
inductive StoreError
  | OutOfMemory
  | CacheBusy

namespace Cache

/-- A new cache. -/
def init (limits : Limits) : Cache := { limits }

def setEntry (cache : Cache) (index : Fin max_entries) (entry : Entry) : Cache :=
  { cache with entries := Function.update cache.entries index entry }

/-- Free a slot. -/
def remove (cache : Cache) (index : Fin max_entries) : Cache :=
  { cache.setEntry index {} with bytes := cache.bytes - (cache.entries index).data.length }

/-- Free a slot now, or with its last pin. -/
def retire (cache : Cache) (index : Fin max_entries) : Cache :=
  if (cache.entries index).pins = 0 then cache.remove index
  else cache.setEntry index { cache.entries index with retired := true }

/-- Retire the slots that a condition picks. -/
@[irreducible] def retireWhere (cache : Cache) (condition : Entry → Bool) : Cache :=
  (List.finRange max_entries).foldl (fun cache index =>
    if condition (cache.entries index) then cache.retire index else cache) cache

/-- Forget everything stored under a location. -/
def invalidateUrl (cache : Cache) (url : Bytes) : Cache :=
  cache.retireWhere fun entry => entry.identity ≠ 0 && entry.part 0 == url

/-- Forget what is stored under a key. -/
def invalidate (cache : Cache) (key : Key) : Cache :=
  cache.retireWhere fun entry => entry.matchesKey key

/-- The slot that a lookup pins. -/
def findEntry (cache : Cache) (key : Key) : Option (Fin max_entries) :=
  (List.finRange max_entries).find? fun index =>
    (cache.entries index).matchesKey key && (cache.entries index).pins ≠ max_pins

/-- Whether a mode may use an entry without asking the server. -/
def isHit (mode : Mode) (stale : Bool) : Bool :=
  mode = .force_cache || mode = .only_if_cached || (mode ≠ .no_cache && !stale)

/-- Look a key up. -/
@[irreducible] def lookup (cache : Cache) (key : Key) (mode : Mode) (now : Clock) : Lookup × Cache :=
  let found := if mode ≠ .no_store ∧ mode ≠ .reload then cache.findEntry key else none
  match found with
  | some index =>
    let entry := cache.entries index
    let serial := addSaturating cache.serial 1
    let pinned := { entry with used := serial, pins := entry.pins + 1 }
    let stale := entry.validate || entry.lifetime_ms ≤ entry.age now.monotonic_ms
    let stats :=
      if isHit mode stale then { cache.stats with hits := addSaturating cache.stats.hits 1 }
      else { cache.stats with validations := addSaturating cache.stats.validations 1 }
    (⟨if isHit mode stale then .hit else .revalidate, some ⟨index, entry.token⟩⟩,
      { cache.setEntry index pinned with serial, stats })
  | none =>
    (⟨if mode = .only_if_cached then .only_miss else .miss, none⟩,
      { cache with stats := { cache.stats with misses := addSaturating cache.stats.misses 1 } })

/-- The slot of a handle that is still pinned. -/
def entryFor (cache : Cache) (handle : Handle) : Option (Fin max_entries) :=
  if inside : handle.index < max_entries then
    if (cache.entries ⟨handle.index, inside⟩).token = handle.identity ∧
        (cache.entries ⟨handle.index, inside⟩).pins ≠ 0 then some ⟨handle.index, inside⟩
    else none
  else none

/-- What a handle shows. -/
def view (cache : Cache) (handle : Handle) (now : Clock) : Option View :=
  (cache.entryFor handle).map fun index => {
    headers := (cache.entries index).part 3
    body := (cache.entries index).part 4
    identity := (cache.entries index).identity
    age_seconds := (cache.entries index).age now.monotonic_ms / 1000 }

/-- Give a handle back. -/
@[irreducible] def release (cache : Cache) (handle : Handle) : Cache :=
  match cache.entryFor handle with
  | none => cache
  | some index =>
    let entry := cache.entries index
    let unpinned := cache.setEntry index { entry with pins := entry.pins - 1 }
    if entry.pins - 1 = 0 ∧ entry.retired then unpinned.remove index else unpinned

/-- A free slot, and the slot that was unused for longest. -/
def scan (cache : Cache) (slot : Option (Fin max_entries)) :
    Option (Fin max_entries) × Option (Fin max_entries) :=
  (List.finRange max_entries).foldl (fun (slot, oldest) index =>
    let entry := cache.entries index
    if entry.identity = 0 then (some index, oldest)
    else if entry.pins = 0 ∧ ∀ other ∈ oldest, entry.used < (cache.entries other).used then
      (slot, some index)
    else (slot, oldest)) (slot, none)

/-- Evict entries until there is a free slot and room for bytes. -/
@[irreducible] def makeRoom (size : Nat) : Nat → Cache → Option (Fin max_entries) →
    Option (Fin max_entries) × Cache
  | 0, cache, _ => (none, cache)
  | rounds + 1, cache, slot =>
    let found := cache.scan slot
    if found.1.isSome ∧ cache.bytes ≤ cache.limits.total_bytes - size then (found.1, cache)
    else
      match found.2 with
      | none => (none, cache)
      | some victim =>
        let removed := cache.remove victim
        makeRoom size rounds { removed with stats :=
          { removed.stats with evictions := addSaturating removed.stats.evictions 1 } } found.1

/-- The identity after another one; none is zero. -/
def advance (identity : Nat) : Nat :=
  if (identity + 1) % 2 ^ 64 = 0 then 1 else (identity + 1) % 2 ^ 64

/-- Give out the next identity. -/
def newIdentity (cache : Cache) : Nat × Cache :=
  (cache.next_identity, { cache with next_identity := advance cache.next_identity })

/-- The parts of an entry. -/
def partsOf (key : Key) (headers body : Bytes) : List Bytes :=
  [key.url, key.context, key.headers, headers, body]

def newEntry (parts : List Bytes) (policy : Policy) (now : Clock) (identity token used : Nat) : Entry where
  data := parts.flatten
  ends index := ((parts.take (index.val + 1)).map List.length).sum
  identity
  token
  used
  stored_ms := now.monotonic_ms
  initial_age_ms := policy.age_ms
  lifetime_ms := policy.lifetime_ms
  validate := policy.validate

@[irreducible] def fill (cache : Cache) (slot : Fin max_entries) (parts : List Bytes) (policy : Policy) (now : Clock)
    (preserved_identity : Option Nat) : Nat × Cache :=
  let chosen := match preserved_identity with
    | some identity => (identity, cache)
    | none => cache.newIdentity
  let serial := addSaturating chosen.2.serial 1
  let token := chosen.2.newIdentity
  (chosen.1, { token.2.setEntry slot (newEntry parts policy now chosen.1 token.1 serial) with
    serial
    bytes := token.2.bytes + parts.flatten.length
    stats := { token.2.stats with stores := addSaturating token.2.stats.stores 1 } })

/-- Store a response, where `allocated` says whether there was memory for it. -/
@[irreducible] def store (cache : Cache) (key : Key) (headers body : Bytes) (now : Clock) (request_started_ms : Nat)
    (preserved_identity : Option Nat) (allocated : Bool) :
    Except StoreError (Option Nat) × Cache :=
  let cache := cache.invalidate key
  let policy := responsePolicy headers now request_started_ms
  let parts := partsOf key headers body
  if !policy.allowed ∨ cache.limits.object_bytes < body.length ∨ max_header_bytes < headers.length ∨
      max_key_bytes < key.url.length ∨ max_key_bytes - key.url.length < key.context.length ∨
      max_key_bytes - key.url.length - key.context.length < key.headers.length then (.ok none, cache)
  else if maxCounter < parts.flatten.length ∨ parts.flatten.length = 0 ∨
      cache.limits.total_bytes < parts.flatten.length then (.ok none, cache)
  else if !allocated then (.error .OutOfMemory, cache)
  else
    match makeRoom parts.flatten.length (max_entries + 1) cache none with
    | (none, cache) => (.error .CacheBusy, cache)
    | (some slot, cache) =>
      let filled := cache.fill slot parts policy now preserved_identity
      (.ok (some filled.1), filled.2)

end Cache

end R4OS.WebCache
