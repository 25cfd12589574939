import R4OS.NtfsBuilder.Nodes
import R4OS.Ntfs.Runlist

/-!
# Records of files

A record holds a header and its attributes one behind another.  An attribute that does not fit makes
the record fail, whatever is added behind it.
-/

namespace R4OS.NtfsBuilder

open Text Block NtfsFormat
open CLayout (alignUp)
open Ntfs (Run encodeRun)

def FILE_MAGIC : Nat := 0x454C4946
def END_MARKER : Nat := 0xFFFFFFFF
def COLLATION_FILE_NAME : Nat := 1

inductive AttrType
  | standard_information
  | file_name
  | security_descriptor
  | volume_name
  | volume_information
  | data
  | index_root
  | index_allocation
  | bitmap

def AttrType.code : AttrType → Nat
  | .standard_information => 0x10
  | .file_name => 0x30
  | .security_descriptor => 0x50
  | .volume_name => 0x60
  | .volume_information => 0x70
  | .data => 0x80
  | .index_root => 0x90
  | .index_allocation => 0xA0
  | .bitmap => 0xB0

/-- An attribute that is added to a record. -/
inductive Attr
  | resident (attr_type : AttrType) (name_utf16 value : Bytes) (indexed : Nat)
  | nonResident (attr_type : AttrType) (name_utf16 : Bytes) (runs : List Run)
      (data_size init_size alloc_size attr_flags : Nat)

structure RecordBuilder where
  record : Bytes
  offset : Nat
  instance_ : Nat
  failed : Bool

def writeFields (record : Bytes) (fields : List (Nat × Bytes)) : Bytes :=
  fields.foldl (fun written field => put written field.1 field.2) record

/-- A record without attributes. -/
def beginRecord (number sequence flags link_count : Nat) : RecordBuilder where
  record := leBytes 4 FILE_MAGIC ++ (leBytes 2 0x30 ++ (leBytes 2 3 ++ (zeros 8 ++
    (leBytes 2 sequence ++ (leBytes 2 link_count ++ (leBytes 2 0x38 ++ (leBytes 2 flags ++
      (zeros 4 ++ (leBytes 4 RECORD ++ (zeros 12 ++ (leBytes 4 number ++
        zeros (RECORD - 0x30))))))))))))
  offset := 0x38
  instance_ := 0
  failed := false

/-- The header of an attribute with its name, in zeros. -/
def attrBlock (attr_type : AttrType) (name_utf16 : Bytes) (non_resident : Bool)
    (attr_flags total instance_ : Nat) : Bytes :=
  let name_offset := if non_resident then 0x40 else 0x18
  writeFields (zeros total)
    [(0, leBytes 4 attr_type.code), (4, leBytes 4 total),
      (8, leBytes 1 (if non_resident then 1 else 0)), (9, leBytes 1 (name_utf16.length / 2)),
      (10, leBytes 2 name_offset), (12, leBytes 2 attr_flags), (14, leBytes 2 instance_),
      (name_offset, name_utf16)]

/-- Start an attribute behind the last one, unless there is no room for it. -/
def RecordBuilder.attrHeader (rb : RecordBuilder) (attr_type : AttrType) (name_utf16 : Bytes)
    (non_resident : Bool) (attr_flags body_len : Nat) : Option RecordBuilder :=
  let name_offset := if non_resident then 0x40 else 0x18
  let value_offset := alignUp (name_offset + name_utf16.length) 8
  let total := alignUp (value_offset + body_len) 8
  if RECORD < rb.offset + total + 8 then none
  else some { rb with
    record := put rb.record rb.offset
      (attrBlock attr_type name_utf16 non_resident attr_flags total rb.instance_)
    instance_ := rb.instance_ + 1
    offset := rb.offset + total }

def RecordBuilder.residentAttr (rb : RecordBuilder) (attr_type : AttrType)
    (name_utf16 value : Bytes) (indexed : Nat) : RecordBuilder :=
  let name_offset := 0x18
  let value_offset := alignUp (name_offset + name_utf16.length) 8
  match rb.attrHeader attr_type name_utf16 false 0 (value_offset - name_offset + value.length) with
  | none => { rb with failed := true }
  | some next =>
    let total := alignUp (value_offset + value.length) 8
    { next with
      record := writeFields next.record
        [(rb.offset + 0x10, leBytes 4 value.length), (rb.offset + 0x14, leBytes 2 value_offset),
          (rb.offset + 0x16, leBytes 1 indexed), (rb.offset + value_offset, value),
          (rb.offset + 4, leBytes 4 total)]
      offset := rb.offset + total }

def mappingPairs : Nat → Int → List Run → Option Bytes
  | _, _, [] => some []
  | capacity, previous, run :: rest =>
    match encodeRun capacity run.length_clusters (run.delta previous) with
    | none => none
    | some pair =>
      (mappingPairs (capacity - pair.length) (run.next previous) rest).map (pair ++ ·)

def RecordBuilder.nonResidentAttr (rb : RecordBuilder) (attr_type : AttrType) (name_utf16 : Bytes)
    (runs : List Run) (data_size init_size alloc_size attr_flags : Nat) : RecordBuilder :=
  match mappingPairs 64 0 runs with
  | none => { rb with failed := true }
  | some pairs =>
    let mapping := pairs ++ [0]
    let vcn_total := (runs.map Run.length_clusters).sum
    let name_offset := 0x40
    let mapping_offset := alignUp (name_offset + name_utf16.length) 8
    match rb.attrHeader attr_type name_utf16 true attr_flags
      (mapping_offset - name_offset + mapping.length) with
    | none => { rb with failed := true }
    | some next =>
      let total := alignUp (mapping_offset + mapping.length) 8
      { next with
        record := writeFields next.record
          [(rb.offset + 0x18, leBytes 8 (vcn_total - 1)),
            (rb.offset + 0x20, leBytes 2 mapping_offset),
            (rb.offset + 0x28, leBytes 8 alloc_size), (rb.offset + 0x30, leBytes 8 data_size),
            (rb.offset + 0x38, leBytes 8 init_size), (rb.offset + mapping_offset, mapping),
            (rb.offset + 4, leBytes 4 total)]
        offset := rb.offset + total }

def RecordBuilder.addAttr (rb : RecordBuilder) : Attr → RecordBuilder
  | .resident attr_type name_utf16 value indexed =>
    rb.residentAttr attr_type name_utf16 value indexed
  | .nonResident attr_type name_utf16 runs data_size init_size alloc_size attr_flags =>
    rb.nonResidentAttr attr_type name_utf16 runs data_size init_size alloc_size attr_flags

def RecordBuilder.finish (rb : RecordBuilder) : Except BuilderError Bytes :=
  if rb.failed ∨ RECORD < rb.offset + 8 then .error .RecordOverflow
  else
    match installFixups (writeFields rb.record
      [(rb.offset, leBytes 4 END_MARKER), (rb.offset + 4, leBytes 4 0),
        (0x18, leBytes 4 (rb.offset + 8)), (0x28, leBytes 2 rb.instance_)]) 0 with
    | .error _ => .error .RecordOverflow
    | .ok record => .ok record

/-- A record with its attributes in their order, unless one of them is refused. -/
structure RecordSpec where
  number : Nat
  sequence : Nat
  flags : Nat
  link_count : Nat
  attrs : Except BuilderError (List Attr)

def RecordSpec.build (spec : RecordSpec) : Except BuilderError Bytes :=
  match spec.attrs with
  | .error error => .error error
  | .ok attrs =>
    (attrs.foldl RecordBuilder.addAttr
      (beginRecord spec.number spec.sequence spec.flags spec.link_count)).finish

def utf16Of (name : Bytes) : Bytes := name.flatMap fun character => [character, 0]

def indexName : Bytes := utf16Of (ascii "$I30")

def dataRun (name_utf16 : Bytes) (lcn clusters data_size : Nat) : Attr :=
  .nonResident .data name_utf16 [⟨clusters, some lcn⟩] data_size data_size (clusters * CLUSTER) 0

def bitmapRun (lcn clusters data_size : Nat) : Attr :=
  .nonResident .bitmap [] [⟨clusters, some lcn⟩] data_size data_size (clusters * CLUSTER) 0

def allocationRun (name_utf16 : Bytes) (lcn clusters : Nat) : Attr :=
  .nonResident .index_allocation name_utf16 [⟨clusters, some lcn⟩] (clusters * CLUSTER)
    (clusters * CLUSTER) (clusters * CLUSTER) 0

def sparseData (name_ascii : Bytes) (clusters data_size : Nat) : Attr :=
  .nonResident .data (utf16Of name_ascii) [⟨clusters, none⟩] data_size 0 data_size 0

def residentData (name_utf16 value : Bytes) : Attr := .resident .data name_utf16 value 0

/-- The times of a file that is new. -/
def times (timestamp : Nat) : Bytes :=
  leBytes 8 timestamp ++ (leBytes 8 timestamp ++ (leBytes 8 timestamp ++ leBytes 8 timestamp))

def si72 (timestamp file_attrs security_id : Nat) : Attr :=
  .resident .standard_information [] (times timestamp ++ (leBytes 4 file_attrs ++ (zeros 16 ++
    (leBytes 4 security_id ++ zeros 16)))) 0

def si48 (timestamp file_attrs : Nat) : Attr :=
  .resident .standard_information [] (times timestamp ++ (leBytes 4 file_attrs ++ zeros 12)) 0

def securityDescriptor (sd : Bytes) : Attr := .resident .security_descriptor [] sd 0

def fileNameValue (timestamp : Nat) (name : Bytes) (parent_record parent_seq flags alloc_size
    data_size namespace_ : Nat) : Attr :=
  .resident .file_name [] (leBytes 8 (FileReference.pack ⟨parent_record, parent_seq⟩) ++
    (times timestamp ++ (leBytes 8 alloc_size ++ (leBytes 8 data_size ++ (leBytes 4 flags ++
      (zeros 4 ++ (leBytes 1 name.length ++ (leBytes 1 namespace_ ++ utf16Of name)))))))) 1

def fileName (timestamp : Nat) (name : Bytes) (attr_flags : Nat) (is_dir : Bool)
    (alloc_size data_size : Nat) : Attr :=
  fileNameValue timestamp name 5 5 (if is_dir then attr_flags ||| 0x10000000 else attr_flags)
    alloc_size data_size 3

def fileNameDot (timestamp : Nat) : Attr :=
  fileNameValue timestamp (ascii ".") 5 5 0x10000006 0 0 3

def fileNameExtendChild (timestamp : Nat) (name : Bytes) : Attr :=
  fileNameValue timestamp name 11 11 0x20000006 0 0 3

/-- The bytes that a file reports for its data. -/
def Node.dataAlloc (node : Node) : Nat :=
  if 0 < node.data_clusters then node.data_clusters * CLUSTER else alignUp node.data.length 8

def Node.namespace_ (node : Node) : Nat := if is83Safe node.name then 3 else 0

def userFileName (timestamp : Nat) (node : Node) (parent_record : Nat) : Attr :=
  fileNameValue timestamp node.name parent_record
    (if parent_record ≤ 15 then max parent_record 1 else 1)
    (if node.is_dir then 0x10000000 else 0x20) node.dataAlloc node.data.length node.namespace_

def volumeName (label : Bytes) : Attr := .resident .volume_name [] (utf16Of (label.take 32)) 0

def volumeInformation : Attr :=
  .resident .volume_information [] (zeros 8 ++ (leBytes 1 3 ++ (leBytes 1 1 ++ zeros 2))) 0

/-- The root of an index.  The source leaves the three bytes behind its flag as they are. -/
def indexRootValue (entries : Bytes) (flag : Nat) : Bytes :=
  leBytes 4 0x30 ++ (leBytes 4 COLLATION_FILE_NAME ++ (leBytes 4 INDEX_BLOCK ++ (leBytes 1 1 ++
    (zeros 3 ++ (leBytes 4 0x10 ++ (leBytes 4 (0x10 + entries.length) ++
      (leBytes 4 (0x10 + entries.length) ++ (leBytes 1 flag ++ (zeros 3 ++ entries)))))))))

/-- The key of a file in the directory of extensions. -/
def extendKey (timestamp : Nat) (name : Bytes) (record : Nat) : Bytes :=
  leBytes 8 (FileReference.pack ⟨record, 1⟩) ++ (leBytes 8 (FileReference.pack ⟨11, 11⟩) ++
    (times timestamp ++ (zeros 16 ++ (leBytes 4 0x20000006 ++ (zeros 4 ++ (leBytes 1 name.length ++
      (leBytes 1 3 ++ utf16Of name)))))))

def extendIndex (timestamp : Nat) : Attr :=
  .resident .index_root indexName (indexRootValue (indexBody
    [⟨extendKey timestamp (ascii "$ObjId") 25, none⟩,
      ⟨extendKey timestamp (ascii "$Quota") 24, none⟩,
      ⟨extendKey timestamp (ascii "$Reparse") 26, none⟩] none) 0) 0

def bitmapByte (block_count place : Nat) : UInt8 :=
  UInt8.ofNat (2 ^ min 8 (block_count - place * 8) - 1)

def bitmapLength (block_count : Nat) : Nat := alignUp ((block_count + 7) / 8) 8

def bitmapValue (block_count : Nat) : Bytes :=
  (List.range (bitmapLength block_count)).map (bitmapByte block_count)

def dirIndexAttrs (index : DirIndex) : Except BuilderError (List Attr) :=
  if ¬index.root_has_children ∧ 0x200 < 0x10 + 0x10 + index.resident_entries.length then
    .error .IndexOverflow
  else
    let root := Attr.resident .index_root indexName (if index.root_has_children then
      indexRootValue (writeEndEntry (some index.root_child_vcn)) 1
      else indexRootValue index.resident_entries 0) 0
    if index.block_count = 0 then .ok [root]
    else if MAX_INDEX_BLOCKS < index.block_count then .error .IndexOverflow
    else .ok [root, allocationRun indexName index.lcn index.block_count,
      .resident .bitmap indexName (bitmapValue index.block_count) 0]

end R4OS.NtfsBuilder
