import R4OS.Numeric.Word64
import R4OS.Text.Bytes

/-!
# The web font cache

A catalog of content-addressed fonts: a fixed table of entries with the number of occupied ones and
their total size kept beside it.  Entries are identified by the digest of their content.
-/

namespace R4OS.FontCache

open Numeric Text

def digest_bytes : Nat := 32

def max_entries : Nat := 128

def max_source_url_bytes : Nat := 767

/-- Bytes of a media type. -/
def max_mime_bytes : Nat := 95

def max_path_bytes : Nat := 239

/-- Content digests. -/
abbrev Digest : Type := Vector UInt8 digest_bytes

inductive CacheError
  | PathTooLong
  | InvalidTransaction
  | InvalidMetadata
  | DigestCollision
  | CatalogFull
  | ReservationTooLarge
  deriving DecidableEq

/-- Formats of font files. -/
inductive FontFormat
  | woff
  | woff2
  | truetype
  | opentype
  | collection
  | embedded_opentype
  | unknown
  deriving DecidableEq

/-- One entry of the table. -/
structure Metadata where
  occupied : Bool := false
  id : Digest := Vector.replicate digest_bytes 0
  source_url : Bounded max_source_url_bytes := default
  format : FontFormat := .unknown
  mime : Bounded max_mime_bytes := default
  size : UInt64 := 0
  checksum : Digest := Vector.replicate digest_bytes 0
  created_at : UInt64 := 0
  last_access : UInt64 := 0
  deriving DecidableEq

/-- Whether an entry is complete and consistent. -/
def Metadata.valid (entry : Metadata) : Bool :=
  entry.occupied && 0 < entry.size && entry.source_url.bytes != [] && entry.mime.bytes != [] &&
    entry.format != .unknown && entry.id == entry.checksum && entry.created_at ≤ entry.last_access

def Metadata.holds (entry : Metadata) (id : Digest) : Bool := entry.occupied && entry.id == id

/-- A font that was fetched and described. -/
structure Prepared where
  metadata : Metadata

/-- Limits of the cache. -/
structure Policy where
  max_object_bytes : UInt64 := 8 * 1024 * 1024
  max_total_bytes : UInt64 := 32 * 1024 * 1024
  max_age_seconds : UInt64 := 30 * 24 * 60 * 60
  max_entry_count : Nat := max_entries

/-- Whether a policy can be met at all. -/
def Policy.valid (policy : Policy) : Bool :=
  0 < policy.max_object_bytes && policy.max_object_bytes ≤ policy.max_total_bytes &&
    0 < policy.max_entry_count && policy.max_entry_count ≤ max_entries

/-- Whether a font is new to the catalog. -/
inductive Disposition
  | new_object
  | duplicate
  deriving DecidableEq

/-- The catalog: its table, the number of occupied entries and their total size. -/
structure Catalog where
  entries : List Metadata := List.replicate max_entries {}
  count : Nat := 0
  total_bytes : UInt64 := 0
  /-- The table has its fixed size. -/
  capacity : entries.length = max_entries := by exact List.length_replicate

namespace Catalog

/-- Replace one entry of the table. -/
def put (catalog : Catalog) (index : Nat) (entry : Metadata) : Catalog :=
  { catalog with
    entries := catalog.entries.set index entry
    capacity := List.length_set.trans catalog.capacity }

/-- Whether a candidate is new, known, or in conflict with a known entry. -/
def classify (catalog : Catalog) (candidate : Prepared) : Except CacheError Disposition :=
  if !candidate.metadata.valid then .error .InvalidMetadata
  else match catalog.entries.find? (·.holds candidate.metadata.id) with
    | none => .ok .new_object
    | some entry =>
      if !entry.valid || entry.checksum != candidate.metadata.checksum ||
          entry.size != candidate.metadata.size then .error .DigestCollision
      else .ok .duplicate

/-- The entry of an id. -/
def find (catalog : Catalog) (id : Digest) : Option Metadata :=
  catalog.entries.find? (·.holds id)

/-- A known entry under the description of a candidate, with the earlier creation and the later use. -/
def merged (entry candidate : Metadata) : Metadata :=
  let created_at := min entry.created_at candidate.created_at
  { candidate with
    created_at := created_at
    last_access := max (max entry.last_access candidate.last_access) created_at }

def recordCommitted (catalog : Catalog) (candidate : Prepared) :
    Except CacheError (Disposition × Catalog) :=
  match catalog.classify candidate with
  | .error error => .error error
  | .ok .duplicate =>
    match catalog.entries.findIdx? (·.holds candidate.metadata.id) with
    | some index =>
      .ok (.duplicate,
        catalog.put index (merged (catalog.entries.getD index {}) candidate.metadata))
    -- classify has found the entry
    | none => .error .InvalidMetadata
  | .ok .new_object =>
    if max_entries ≤ catalog.count then .error .CatalogFull
    else match checkedAdd catalog.total_bytes candidate.metadata.size with
      | none => .error .CatalogFull
      | some new_total =>
        match catalog.entries.findIdx? (!·.occupied) with
        | none => .error .CatalogFull
        | some index =>
          .ok (.new_object,
            { catalog.put index candidate.metadata with
              count := catalog.count + 1
              total_bytes := new_total })

/-- Note that an entry was used. -/
def touch (catalog : Catalog) (id : Digest) (now : UInt64) : Bool × Catalog :=
  match catalog.entries.findIdx? (·.holds id) with
  | none => (false, catalog)
  | some index =>
    let entry := catalog.entries.getD index {}
    (true, catalog.put index { entry with last_access := max entry.last_access now })

/-- Remove an entry. -/
def remove (catalog : Catalog) (id : Digest) : Option (Metadata × Catalog) :=
  match catalog.entries.findIdx? (·.holds id) with
  | none => none
  | some index =>
    let removed := catalog.entries.getD index {}
    some (removed,
      { catalog.put index {} with
        count := catalog.count - 1
        total_bytes := saturatingSub catalog.total_bytes removed.size })

/-- The occupied entries. -/
def live (catalog : Catalog) : List Metadata := catalog.entries.filter Metadata.occupied

/-- Whether the catalog is consistent. -/
def validate (catalog : Catalog) : Bool :=
  catalog.live.all Metadata.valid &&
    decide (catalog.live.Pairwise fun entry later => entry.id ≠ later.id) &&
    catalog.live.length == catalog.count &&
    catalog.live.foldlM (fun total entry => checkedAdd total entry.size) 0 ==
      some catalog.total_bytes

end Catalog

end R4OS.FontCache
