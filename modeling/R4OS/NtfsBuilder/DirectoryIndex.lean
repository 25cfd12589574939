import R4OS.NtfsBuilder.IndexWriter
import R4OS.NtfsFormat.FileNames

/-!
# The index of a directory

The entries of a directory that do not fit its record go to index blocks, from the lowest level
upward.  An entry that overflows a block closes it and moves to the level above.
-/

namespace R4OS.NtfsBuilder

open Text Block NtfsFormat

inductive BuilderError
  | VolumeTooSmall
  | TooManyFiles
  | NameInvalid
  | IndexOverflow
  | RecordOverflow
  | Geometry
  | MetadataInvalid
  | AlreadyPrepared
  | PathTooDeep
  | Bounds

def MAX_INDEX_BLOCKS : Nat := 4096

def ROOT_ENTRY_BUDGET : Nat := 0x150

/-- The room for the entries of a block, beside its header and its last entry. -/
def capacity : Nat := INDEX_BLOCK - 0x40 - 0x18

structure DirIndex where
  resident_entries : Bytes := []
  blocks : Bytes := []
  block_count : Nat := 0
  lcn : Nat := 0
  root_has_children : Bool := false
  root_child_vcn : Nat := 0

def makeFileNameKey (timestamp : Nat) (name : Bytes) (record seq base_flags : Nat) (is_dir : Bool)
    (alloc_size data_size namespace_ : Nat) : Bytes :=
  leBytes 8 (FileReference.pack ⟨record, seq⟩) ++ (leBytes 8 (FileReference.pack ⟨5, 5⟩) ++
    (leBytes 8 timestamp ++ (leBytes 8 timestamp ++ (leBytes 8 timestamp ++ (leBytes 8 timestamp ++
      (leBytes 8 alloc_size ++ (leBytes 8 data_size ++
        (leBytes 4 (if is_dir then base_flags ||| 0x10000000 else base_flags) ++ (zeros 4 ++
          (leBytes 1 name.length ++ (leBytes 1 namespace_ ++
            name.flatMap fun character => [character, 0])))))))))))

def keyName (key : Bytes) : Bytes := slice key (8 + 0x42) (readLe 1 key (8 + 0x40) * 2)

def indexBody (entries : List PendingEntry) (end_child : Option Nat) : Bytes :=
  entries.flatMap writeEntry ++ writeEndEntry end_child

def anyChild (entries : List PendingEntry) (end_child : Option Nat) : Bool :=
  end_child.isSome || entries.any fun pending => pending.child.isSome

/-- A block before its fixups. -/
def indexBlock (vcn : Nat) (entries : List PendingEntry) (end_child : Option Nat) : Bytes :=
  writeIndxHeader (put (zeros INDEX_BLOCK) 0x40 (indexBody entries end_child)) vcn
    (0x40 + (indexBody entries end_child).length) (anyChild entries end_child)

/-- Append a block, and give its number. -/
def closeIndexBlock (finished : List Bytes) (entries : List PendingEntry) (end_child : Option Nat) :
    Except BuilderError (List Bytes × Nat) :=
  if MAX_INDEX_BLOCKS ≤ finished.length then .error .IndexOverflow
  else
    match installFixups (indexBlock finished.length entries end_child) 0 with
    | .error _ => .error .IndexOverflow
    | .ok block => .ok (finished ++ [block], finished.length)

/-- A level in progress: the entries of its open block, and the entries for the level above. -/
structure Scan where
  finished : List Bytes
  promoted : List PendingEntry
  opened : List PendingEntry
  used : Nat

def scanEntry (scan : Scan) (pending : PendingEntry) : Except BuilderError Scan :=
  if capacity < scan.used + pendingLength pending then
    match closeIndexBlock scan.finished scan.opened pending.child with
    | .error error => .error error
    | .ok (finished, vcn) => .ok {
        finished := finished
        promoted := scan.promoted ++ [⟨pending.key, some vcn⟩]
        opened := []
        used := 0 }
  else .ok { scan with
    opened := scan.opened ++ [pending]
    used := scan.used + pendingLength pending }

def scanEntries : Scan → List PendingEntry → Except BuilderError Scan
  | scan, [] => .ok scan
  | scan, pending :: rest =>
    match scanEntry scan pending with
    | .error error => .error error
    | .ok next => scanEntries next rest

/-- A finished level, with its last block. -/
structure Level where
  finished : List Bytes
  promoted : List PendingEntry
  last_vcn : Nat

def buildLevel (finished : List Bytes) (current : List PendingEntry) (trailing_child : Option Nat) :
    Except BuilderError Level :=
  match scanEntries ⟨finished, [], [], 0⟩ current with
  | .error error => .error error
  | .ok scan =>
    match closeIndexBlock scan.finished scan.opened trailing_child with
    | .error error => .error error
    | .ok (finished, last_vcn) => .ok ⟨finished, scan.promoted, last_vcn⟩

/-- The levels of an index, up to the one with a single block. -/
def buildLevels : Nat → List Bytes → List PendingEntry → Option Nat →
    Except BuilderError (List Bytes × Nat)
  | 0, _, _, _ => .error .IndexOverflow
  | depth_guard + 1, finished, current, trailing_child =>
    match buildLevel finished current trailing_child with
    | .error error => .error error
    | .ok level =>
      if level.promoted = [] then .ok (level.finished, level.last_vcn)
      else buildLevels depth_guard level.finished level.promoted (some level.last_vcn)

/-- The parent of the names in a directory. -/
def parentReference (record : Nat) : FileReference :=
  ⟨record, if record ≤ 15 then max record 1 else 1⟩

def patchParent (record : Nat) (key : Bytes) : Bytes :=
  put key 8 (leBytes 8 (parentReference record).pack)

def residentTotal (keys : List Bytes) : Nat :=
  (keys.map fun key => entryLength (key.length - 8) false).sum

def residentIndex (keys : List Bytes) : Bytes :=
  keys.flatMap (fun key => writeEntry ⟨key, none⟩) ++ writeEndEntry none

def take (next_lcn total_clusters clusters : Nat) : Except BuilderError (Nat × Nat) :=
  if total_clusters < next_lcn ∨ total_clusters - next_lcn < clusters then .error .VolumeTooSmall
  else .ok (next_lcn, next_lcn + clusters)

/-- The index of a directory, and the next free cluster behind its blocks. -/
def assembleIndex (record : Nat) (unpatched : List Bytes) (next_lcn total_clusters : Nat) :
    Except BuilderError (DirIndex × Nat) :=
  let keys := unpatched.map (patchParent record)
  if residentTotal keys + 0x10 ≤ ROOT_ENTRY_BUDGET then
    .ok ({ resident_entries := residentIndex keys }, next_lcn)
  else
    match buildLevels 8 [] (keys.map fun key => ⟨key, none⟩) none with
    | .error error => .error error
    | .ok (finished, top_vcn) =>
      if MAX_INDEX_BLOCKS < finished.length then .error .IndexOverflow
      else
        match take next_lcn total_clusters finished.length with
        | .error error => .error error
        | .ok (lcn, next) => .ok ({
            blocks := finished.flatten
            block_count := finished.length
            lcn := lcn
            root_child_vcn := top_vcn
            root_has_children := true }, next)

end R4OS.NtfsBuilder
