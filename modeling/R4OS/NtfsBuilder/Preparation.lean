import R4OS.NtfsBuilder.RecordBuilder
import Mathlib.Data.List.Sort

/-!
# Preparing a volume

The layout takes clusters from the front of the volume: for the system files, for the data that does
not fit its record, and for the index blocks of directories.  Then all records are built, before
anything is written.
-/

namespace R4OS.NtfsBuilder

open Text Block NtfsFormat
open CLayout (alignUp)

def MFT_INITIAL_RECORDS : Nat := 512
def MFT_BITMAP_DATA : Nat := 4104
def LOGFILE_BYTES : Nat := 2 * 1024 * 1024

def residentDataBudget : Nat := 0x2C0

structure Segment where
  offset : Nat
  data : Bytes
  owned : Bool

/-- What is written to a volume. -/
structure Plan where
  bytes : Nat
  clusters : Nat
  used_clusters : Nat := 0
  bitmap_offset : Nat := 0
  bitmap_bytes : Nat := 0
  bitmap_allocated_bytes : Nat := 0
  logfile_offset : Nat := 0
  logfile_bytes : Nat := 0
  boot : Bytes := zeros 512
  segments : List Segment := []

def Plan.checkSegment (plan : Plan) (offset length : Nat) : Except BuilderError Unit :=
  if offset % 512 ≠ 0 ∨ plan.bytes ≤ offset ∨ plan.bytes - offset < length then .error .Bounds
  else .ok ()

def Plan.add (plan : Plan) (segment : Segment) : Except BuilderError Plan :=
  match plan.checkSegment segment.offset segment.data.length with
  | .error error => .error error
  | .ok () => .ok { plan with segments := plan.segments ++ [segment] }

def Plan.addBorrowed (plan : Plan) (offset : Nat) (data : Bytes) : Except BuilderError Plan :=
  plan.add ⟨offset, data, false⟩

def Plan.addOwned (plan : Plan) (offset : Nat) (data : Bytes) : Except BuilderError Plan :=
  plan.add ⟨offset, data, true⟩

def Plan.checkSegments (plan : Plan) : List Segment → Except BuilderError Unit
  | [] => .ok ()
  | segment :: rest =>
    match plan.checkSegment segment.offset segment.data.length with
    | .error error => .error error
    | .ok () => plan.checkSegments rest

/-- The geometry that a plan must have. -/
def Plan.Regular (plan : Plan) : Prop :=
  16 * 1024 * 1024 ≤ plan.bytes ∧ plan.bytes % 512 = 0 ∧
    plan.clusters = (plan.bytes / 512 - 1) / 8 ∧
    plan.used_clusters ≠ 0 ∧ plan.used_clusters ≤ plan.clusters ∧
    plan.bitmap_bytes = alignUp ((plan.clusters + 7) / 8) 8 ∧
    plan.bitmap_bytes ≤ plan.bitmap_allocated_bytes ∧
    plan.bitmap_allocated_bytes % 512 = 0 ∧ plan.bitmap_offset % 512 = 0 ∧
    plan.bitmap_offset < plan.used_clusters * 4096 ∧
    plan.bitmap_allocated_bytes ≤ plan.used_clusters * 4096 - plan.bitmap_offset ∧
    plan.logfile_offset % 512 = 0 ∧ plan.logfile_bytes % 512 = 0 ∧
    plan.logfile_offset < plan.bytes ∧ plan.logfile_bytes ≤ plan.bytes - plan.logfile_offset ∧
    slice plan.boot 3 8 = ascii "NTFS    " ∧
    plan.boot[510]? = some 0x55 ∧ plan.boot[511]? = some 0xAA

instance (plan : Plan) : Decidable plan.Regular := by
  unfold Plan.Regular
  infer_instance

def Plan.validate (plan : Plan) : Except BuilderError Unit :=
  if plan.Regular then plan.checkSegments plan.segments else .error .Geometry

/-- The checks of a builder before anything is laid out. -/
def Builder.checkParameters (builder : Builder) : Except BuilderError Unit :=
  if builder.total_bytes < 16 * 1024 * 1024 ∨ builder.total_bytes % SECTOR ≠ 0 then
    .error .Geometry
  else if 32 < builder.label.length then .error .NameInvalid
  else if builder.label.any fun character => character < 0x20 || 0x7E < character then
    .error .NameInvalid
  else if builder.info.upcase.length ≠ UPCASE_BYTES ∨ builder.info.attrdef.length = 0 ∨
      CLUSTER < builder.info.attrdef.length ∨ builder.info.sds_prefix.length = 0 ∨
      0x40000 < builder.info.sds_prefix.length ∨ builder.info.sdh_alloc.length ≠ INDEX_BLOCK ∨
      builder.info.sii_alloc.length ≠ INDEX_BLOCK then
    .error .MetadataInvalid
  else .ok ()

def Builder.totalSectors (builder : Builder) : Nat := builder.total_bytes / SECTOR - 1

def Builder.totalClusters (builder : Builder) : Nat := builder.totalSectors * SECTOR / CLUSTER

/-- Grow a number of records until it covers what is needed. -/
def growRecords (needed records : Nat) : Nat :=
  if needed > records then growRecords needed (records + 256) else records
termination_by needed - records
decreasing_by omega

/-- The records that a builder needs beside the free ones. -/
def Builder.neededRecords (builder : Builder) : Nat :=
  FIRST_USER_RECORD + builder.nodes.length + 16

def Builder.mftRecords (builder : Builder) : Nat :=
  growRecords builder.neededRecords MFT_INITIAL_RECORDS

/-- The places of the system files. -/
structure SystemLayout where
  lcn_boot : Nat
  lcn_logfile : Nat
  lcn_attrdef : Nat
  lcn_bitmap : Nat
  lcn_upcase : Nat
  lcn_sds : Nat
  lcn_sdh : Nat
  lcn_sii : Nat
  lcn_mft : Nat
  lcn_mft_bitmap : Nat
  lcn_mftmirr : Nat

def Builder.bitmapData (builder : Builder) : Nat := alignUp ((builder.totalClusters + 7) / 8) 8

def Builder.bitmapClusters (builder : Builder) : Nat :=
  (builder.bitmapData + CLUSTER - 1) / CLUSTER

def Builder.sdsData (builder : Builder) : Nat := 0x40000 + alignUp builder.info.sds_prefix.length 4

def Builder.sdsClusters (builder : Builder) : Nat := (builder.sdsData + CLUSTER - 1) / CLUSTER

def Builder.mftClusters (builder : Builder) : Nat := builder.mftRecords * RECORD / CLUSTER

def mftBitmapClusters : Nat := (MFT_BITMAP_DATA + CLUSTER - 1) / CLUSTER

/-- Take the clusters of the system files. -/
def Builder.takeSystem (builder : Builder) : Except BuilderError (SystemLayout × Nat) := do
  let total := builder.totalClusters
  let (lcn_boot, next) ← take 0 total 2
  let (lcn_logfile, next) ← take next total (LOGFILE_BYTES / CLUSTER)
  let (lcn_attrdef, next) ← take next total 1
  let (lcn_bitmap, next) ← take next total builder.bitmapClusters
  let (lcn_upcase, next) ← take next total (UPCASE_BYTES / CLUSTER)
  let (lcn_sds, next) ← take next total builder.sdsClusters
  let (lcn_sdh, next) ← take next total 1
  let (lcn_sii, next) ← take next total 1
  let (lcn_mft, next) ← take next total builder.mftClusters
  let (lcn_mft_bitmap, next) ← take next total mftBitmapClusters
  let (lcn_mftmirr, next) ← take next total 1
  return (⟨lcn_boot, lcn_logfile, lcn_attrdef, lcn_bitmap, lcn_upcase, lcn_sds, lcn_sdh, lcn_sii,
    lcn_mft, lcn_mft_bitmap, lcn_mftmirr⟩, next)

/-- Number the nodes behind the root. -/
def numberNodes (nodes : List Node) : List Node :=
  nodes.mapIdx fun place node =>
    if place = 0 then node else { node with record := FIRST_USER_RECORD + (place - 1) }

def Node.neededClusters (node : Node) : Nat :=
  if node.is_dir ∨ node.data.length ≤ residentDataBudget then 0
  else (node.data.length + CLUSTER - 1) / CLUSTER

def takeData (next_lcn total_clusters : Nat) : List Node → Except BuilderError (List Node × Nat)
  | [] => .ok ([], next_lcn)
  | node :: rest =>
    if node.neededClusters = 0 then
      match takeData next_lcn total_clusters rest with
      | .error error => .error error
      | .ok (nodes, next) => .ok (node :: nodes, next)
    else
      match take next_lcn total_clusters node.neededClusters with
      | .error error => .error error
      | .ok (lcn, next) =>
        match takeData next total_clusters rest with
        | .error error => .error error
        | .ok (nodes, next) =>
          .ok ({ node with data_clusters := node.neededClusters, data_lcn := lcn } :: nodes,
            next)

/-- A system file in the root directory. -/
structure SystemName where
  name : Bytes
  record : Nat
  seq : Nat
  flags : Nat
  alloc : Nat
  size : Nat

def Builder.systemNames (builder : Builder) : List SystemName :=
  let layout_mft_bytes := builder.mftRecords * RECORD
  [⟨ascii "$AttrDef", 4, 4, 0x06, CLUSTER, builder.info.attrdef.length⟩,
    ⟨ascii "$BadClus", 8, 8, 0x06, 0, 0⟩,
    ⟨ascii "$Bitmap", 6, 6, 0x06, builder.bitmapClusters * CLUSTER, builder.bitmapData⟩,
    ⟨ascii "$Boot", 7, 7, 0x06, 2 * CLUSTER, 8192⟩,
    ⟨ascii "$Extend", 11, 11, 0x10000006, 0, 0⟩,
    ⟨ascii "$LogFile", 2, 2, 0x06, LOGFILE_BYTES, LOGFILE_BYTES⟩,
    ⟨ascii "$MFT", 0, 1, 0x06, layout_mft_bytes, layout_mft_bytes⟩,
    ⟨ascii "$MFTMirr", 1, 1, 0x06, CLUSTER, CLUSTER⟩,
    ⟨ascii "$Secure", 9, 9, 0x20000006, 0, 0⟩,
    ⟨ascii "$UpCase", 10, 10, 0x06, UPCASE_BYTES, UPCASE_BYTES⟩,
    ⟨ascii "$Volume", 3, 3, 0x06, 0, 0⟩]

/-- The keys of the system files, and of the root directory itself. -/
def Builder.systemKeys (builder : Builder) : List Bytes :=
  builder.systemNames.map (fun sys =>
    makeFileNameKey builder.timestamp sys.name sys.record sys.seq sys.flags false sys.alloc sys.size
      3) ++
    [makeFileNameKey builder.timestamp (ascii ".") 5 5 0x10000006 true 0 0 3]

/-- The key of a node in the directory that holds it. -/
def Node.key (timestamp : Nat) (child : Node) : Bytes :=
  makeFileNameKey timestamp child.name child.record 1 (if child.is_dir then 0x10000000 else 0x20)
    child.is_dir child.dataAlloc child.data.length child.namespace_

def keyLess (upcase left right : Bytes) : Bool :=
  compareFileNames upcase (keyName left) (keyName right) == .lt

/-- Sort keys in the order of their names; keys of one name keep their order. -/
def sortKeys (upcase : Bytes) (keys : List Bytes) : List Bytes :=
  keys.insertionSort fun left right => keyLess upcase right left = false

def Builder.directoryKeys (builder : Builder) (nodes : List Node) (place : Nat) (node : Node) :
    List Bytes :=
  sortKeys builder.info.upcase ((if place = 0 then builder.systemKeys else []) ++
    (node.children.filterMap (nodes[·]?)).map (Node.key builder.timestamp))

/-- Build the indexes of the directories from a place on. -/
def Builder.buildDirIndexes (builder : Builder) (all : List Node) (total_clusters : Nat) :
    Nat → Nat → List Node → Except BuilderError (List Node × Nat)
  | _, next_lcn, [] => .ok ([], next_lcn)
  | place, next_lcn, node :: rest =>
    if node.is_dir then
      match assembleIndex node.record (builder.directoryKeys all place node) next_lcn
        total_clusters with
      | .error error => .error error
      | .ok (index, next) =>
        match builder.buildDirIndexes all total_clusters (place + 1) next rest with
        | .error error => .error error
        | .ok (nodes, next) => .ok ({ node with index := index } :: nodes, next)
    else
      match builder.buildDirIndexes all total_clusters (place + 1) next_lcn rest with
      | .error error => .error error
      | .ok (nodes, next) => .ok (node :: nodes, next)

/-- The places of everything. -/
structure Layout where
  system : SystemLayout
  nodes : List Node
  used_clusters : Nat

/-- Take the clusters of a volume from its front. -/
def Builder.takeLayout (builder : Builder) : Except BuilderError Layout := do
  let total := builder.totalClusters
  let (system, next) ← builder.takeSystem
  let (users, next) ← takeData next total (numberNodes builder.nodes).tail
  let nodes := (numberNodes builder.nodes).take 1 ++ users
  let (nodes, next) ← builder.buildDirIndexes nodes total 0 next nodes
  return ⟨system, nodes, next⟩

def Plan.addAll : Plan → List Segment → Except BuilderError Plan
  | plan, [] => .ok plan
  | plan, segment :: rest =>
    match plan.add segment with
    | .error error => .error error
    | .ok added => added.addAll rest

/-- Add a block of a template, with its sequence number cleared and its fixups renewed. -/
def emitTemplateIndx (plan : Plan) (lcn : Nat) (template : Bytes) : Except BuilderError Plan :=
  match plan.checkSegment (lcn * CLUSTER) template.length with
  | .error error => .error error
  | .ok () =>
    match applyFixups template with
    | .error _ => .error .IndexOverflow
    | .ok block =>
      match installFixups (put block 0x08 (leBytes 8 0)) 0 with
      | .error _ => .error .IndexOverflow
      | .ok block => .ok { plan with
          segments := plan.segments ++ [⟨lcn * CLUSTER, block, true⟩] }

/-- The data that is not in records. -/
def dataSegments (nodes : List Node) : List Segment :=
  (nodes.filter fun node => !node.is_dir && node.data_clusters != 0).map fun node =>
    ⟨node.data_lcn * CLUSTER, node.data, false⟩

/-- The index blocks of directories. -/
def indexSegments (nodes : List Node) : List Segment :=
  (nodes.filter fun node => node.is_dir && node.index.block_count != 0).map fun node =>
    ⟨node.index.lcn * CLUSTER, node.index.blocks.take (node.index.block_count * INDEX_BLOCK), false⟩

/-- The plan of a layout before anything is added. -/
def Builder.emptyPlan (builder : Builder) (layout : Layout) : Plan where
  bytes := builder.total_bytes
  clusters := builder.totalClusters
  used_clusters := layout.used_clusters
  bitmap_offset := layout.system.lcn_bitmap * CLUSTER
  bitmap_bytes := builder.bitmapData
  bitmap_allocated_bytes := builder.bitmapClusters * CLUSTER
  logfile_offset := layout.system.lcn_logfile * CLUSTER
  logfile_bytes := LOGFILE_BYTES

/-- The templates of the system files. -/
def Builder.systemSegments (builder : Builder) (system : SystemLayout) : List Segment :=
  [⟨system.lcn_attrdef * CLUSTER, builder.info.attrdef, false⟩,
    ⟨system.lcn_upcase * CLUSTER, builder.info.upcase, false⟩,
    ⟨system.lcn_sds * CLUSTER, builder.info.sds_prefix, false⟩,
    ⟨system.lcn_sds * CLUSTER + 0x40000, builder.info.sds_prefix, false⟩]

/-- The segments beside the records. -/
def Builder.addSegments (builder : Builder) (layout : Layout) : Except BuilderError Plan := do
  let system := layout.system
  let plan ← (builder.emptyPlan layout).addAll (builder.systemSegments system)
  let plan ← emitTemplateIndx plan system.lcn_sdh builder.info.sdh_alloc
  let plan ← emitTemplateIndx plan system.lcn_sii builder.info.sii_alloc
  let plan ← plan.addAll (dataSegments layout.nodes.tail)
  plan.addAll (indexSegments layout.nodes)

def Builder.rootRecord (builder : Builder) (root_index : DirIndex) : RecordSpec where
  number := 5
  sequence := 5
  flags := 0x03
  link_count := 1
  attrs :=
    match dirIndexAttrs root_index with
    | .error error => .error error
    | .ok attrs => .ok ([si48 builder.timestamp 0x06, fileNameDot builder.timestamp,
        securityDescriptor builder.info.root_sd] ++ attrs)

def Builder.systemRecords (builder : Builder) (system : SystemLayout) (root_index : DirIndex) :
    List RecordSpec :=
  let timestamp := builder.timestamp
  let info := builder.info
  let mft_bytes := builder.mftRecords * RECORD
  let sys := si72 timestamp 0x06 info.security_id_sys
  let sys_dir := si72 timestamp 0x06 info.security_id_sys_dir
  let view := si72 timestamp 0x20000006 info.security_id_sys_dir
  let reserved (number : Nat) : RecordSpec := ⟨number, number, 0x01, 0, .ok [si48 timestamp 0x06,
    securityDescriptor info.boot_sd, residentData [] []]⟩
  [⟨0, 1, 0x01, 1, .ok [sys, fileName timestamp (ascii "$MFT") 0x06 false mft_bytes mft_bytes,
      dataRun [] system.lcn_mft builder.mftClusters mft_bytes,
      bitmapRun system.lcn_mft_bitmap mftBitmapClusters MFT_BITMAP_DATA]⟩,
    ⟨1, 1, 0x01, 1, .ok [sys, fileName timestamp (ascii "$MFTMirr") 0x06 false CLUSTER CLUSTER,
      dataRun [] system.lcn_mftmirr 1 CLUSTER]⟩,
    ⟨2, 2, 0x01, 1, .ok [sys,
      fileName timestamp (ascii "$LogFile") 0x06 false LOGFILE_BYTES LOGFILE_BYTES,
      dataRun [] system.lcn_logfile (LOGFILE_BYTES / CLUSTER) LOGFILE_BYTES]⟩,
    ⟨3, 3, 0x01, 1, .ok [sys_dir, fileName timestamp (ascii "$Volume") 0x06 false 0 0,
      volumeName builder.label, volumeInformation, residentData [] []]⟩,
    ⟨4, 4, 0x01, 1, .ok [sys, fileName timestamp (ascii "$AttrDef") 0x06 false
        (alignUp info.attrdef.length CLUSTER) info.attrdef.length,
      dataRun [] system.lcn_attrdef 1 info.attrdef.length]⟩,
    builder.rootRecord root_index,
    ⟨6, 6, 0x01, 1, .ok [sys, fileName timestamp (ascii "$Bitmap") 0x06 false
        (builder.bitmapClusters * CLUSTER) builder.bitmapData,
      dataRun [] system.lcn_bitmap builder.bitmapClusters builder.bitmapData]⟩,
    ⟨7, 7, 0x01, 1, .ok [si48 timestamp 0x06,
      fileName timestamp (ascii "$Boot") 0x06 false (2 * CLUSTER) 8192,
      securityDescriptor info.boot_sd, dataRun [] system.lcn_boot 2 8192]⟩,
    ⟨8, 8, 0x01, 1, .ok [sys, fileName timestamp (ascii "$BadClus") 0x06 false 0 0,
      residentData [] [],
      sparseData (ascii "$Bad") builder.totalClusters (builder.totalClusters * CLUSTER)]⟩,
    ⟨9, 9, 0x09, 1, .ok [sys_dir, fileName timestamp (ascii "$Secure") 0x20000006 false 0 0,
      dataRun (utf16Of (ascii "$SDS")) system.lcn_sds builder.sdsClusters builder.sdsData,
      .resident .index_root (utf16Of (ascii "$SDH")) info.sdh_root 0,
      .resident .index_root (utf16Of (ascii "$SII")) info.sii_root 0,
      allocationRun (utf16Of (ascii "$SDH")) system.lcn_sdh 1,
      allocationRun (utf16Of (ascii "$SII")) system.lcn_sii 1,
      .resident .bitmap (utf16Of (ascii "$SDH")) info.sdh_bitmap 0,
      .resident .bitmap (utf16Of (ascii "$SII")) info.sii_bitmap 0]⟩,
    ⟨10, 10, 0x01, 1, .ok ([sys,
      fileName timestamp (ascii "$UpCase") 0x06 false UPCASE_BYTES UPCASE_BYTES,
      dataRun [] system.lcn_upcase (UPCASE_BYTES / CLUSTER) UPCASE_BYTES] ++
      if 0 < info.upcase_info.length then
        [.resident .data (utf16Of (ascii "$Info")) info.upcase_info 0] else [])⟩,
    ⟨11, 11, 0x03, 1, .ok [sys_dir, fileName timestamp (ascii "$Extend") 0x06 true 0 0,
      extendIndex timestamp]⟩,
    reserved 12, reserved 13, reserved 14, reserved 15,
    ⟨24, 1, 0x0D, 1, .ok [view, fileNameExtendChild timestamp (ascii "$Quota"),
      .resident .index_root (utf16Of (ascii "$O")) info.quota_o_root 0,
      .resident .index_root (utf16Of (ascii "$Q")) info.quota_q_root 0]⟩,
    ⟨25, 1, 0x0D, 1, .ok [view, fileNameExtendChild timestamp (ascii "$ObjId"),
      .resident .index_root (utf16Of (ascii "$O")) info.objid_o_root 0]⟩,
    ⟨26, 1, 0x0D, 1, .ok [view, fileNameExtendChild timestamp (ascii "$Reparse"),
      .resident .index_root (utf16Of (ascii "$R")) info.reparse_r_root 0]⟩]

/-- The attributes of a node behind its name. -/
def Node.contentAttrs (node : Node) : Except BuilderError (List Attr) :=
  if node.is_dir then dirIndexAttrs node.index
  else if 0 < node.data_clusters then
    .ok [dataRun [] node.data_lcn node.data_clusters node.data.length]
  else .ok [residentData [] node.data]

def Builder.userRecord (builder : Builder) (parent_record : Nat) (node : Node) : RecordSpec where
  number := node.record
  sequence := 1
  flags := if node.is_dir then 0x03 else 0x01
  link_count := 1
  attrs :=
    match node.contentAttrs with
    | .error error => .error error
    | .ok attrs =>
      .ok ([if node.is_dir then si72 builder.timestamp 0x00 builder.info.security_id_dir
        else si72 builder.timestamp 0x20 builder.info.security_id_file,
        userFileName builder.timestamp node parent_record] ++ attrs)

def parentRecord (nodes : List Node) (node : Node) : Nat :=
  (nodes[node.parent]?.map Node.record).getD 0

def rootIndex (nodes : List Node) : DirIndex := (nodes.head?.map Node.index).getD {}

/-- All records in the order in which they are built. -/
def Builder.records (builder : Builder) (layout : Layout) : List RecordSpec :=
  builder.systemRecords layout.system (rootIndex layout.nodes) ++
    layout.nodes.tail.map fun node => builder.userRecord (parentRecord layout.nodes node) node

/-- Build records, and put them at their places. -/
def buildRecords : Bytes → List RecordSpec → Except BuilderError Bytes
  | image, [] => .ok image
  | image, spec :: rest =>
    match spec.build with
    | .error error => .error error
    | .ok record => buildRecords (put image (spec.number * RECORD) record) rest

def mftBitmap (record_cursor : Nat) : Bytes :=
  (List.range (alignUp MFT_BITMAP_DATA CLUSTER)).map fun place =>
    UInt8.ofNat (((List.range 8).filter fun bit =>
      place * 8 + bit < record_cursor && !(16 ≤ place * 8 + bit && place * 8 + bit < 24)).map
        (2 ^ ·)).sum

def Builder.bootSector (builder : Builder) (mft_lcn mftmirr_lcn : Nat) : Bytes :=
  [0xEB, 0x52, 0x90] ++ (ascii "NTFS    " ++ (leBytes 2 SECTOR ++ (leBytes 1 (CLUSTER / SECTOR) ++
    (zeros 7 ++ ([0xF8] ++ (zeros 2 ++ (leBytes 2 63 ++ (leBytes 2 255 ++
      (leBytes 4 builder.partition_lba ++ (zeros 4 ++ (leBytes 4 0x00800080 ++
        (leBytes 8 builder.totalSectors ++ (leBytes 8 mft_lcn ++ (leBytes 8 mftmirr_lcn ++
          ([0xF6] ++ (zeros 3 ++ ([0x01] ++ (zeros 3 ++ (leBytes 8 builder.serial ++
            (zeros 0x1AE ++ [0x55, 0xAA]))))))))))))))))))))

def Builder.addRecords (builder : Builder) (layout : Layout) (plan : Plan) :
    Except BuilderError Plan := do
  let system := layout.system
  plan.checkSegment (system.lcn_mft * CLUSTER) (builder.mftRecords * RECORD)
  let image ← buildRecords (zeros (builder.mftRecords * RECORD)) (builder.records layout)
  let plan ← plan.addAll [⟨system.lcn_mft * CLUSTER, image, true⟩,
    ⟨system.lcn_mft_bitmap * CLUSTER,
      mftBitmap (FIRST_USER_RECORD + (builder.nodes.length - 1)), true⟩,
    ⟨system.lcn_mftmirr * CLUSTER, image.take (4 * RECORD), false⟩]
  let plan := { plan with boot := builder.bootSector system.lcn_mft system.lcn_mftmirr }
  plan.validate
  return plan

/-- Lay a volume out and build all of its records. -/
def Builder.prepare (builder : Builder) : Except BuilderError Plan := do
  if builder.prepared_once then throw .AlreadyPrepared
  builder.checkParameters
  if builder.totalClusters < 4096 then throw .VolumeTooSmall
  if 4096 < builder.mftRecords then throw .TooManyFiles
  let layout ← builder.takeLayout
  let plan ← builder.addSegments layout
  builder.addRecords layout plan

end R4OS.NtfsBuilder
