import R4OS.NtfsBuilder.LayoutRoom
import R4OS.NtfsBuilder.RecordRoom

/-!
# Room for the records of users

The record of a node holds its times, its name, and its data or its index.  Whether it is built
depends on the length of the name and on what stands behind it.
-/

namespace R4OS.NtfsBuilder

open Text Block NtfsFormat
open CLayout (alignUp)
open Ntfs (lengthSize offsetSize offsetSizeFrom encodeRun)

/-- The bytes of the mapping pair of clusters at a place. -/
def runLength (lcn clusters : Nat) : Nat := 1 + lengthSize clusters + offsetSize (some (lcn : Int))

def Node.nameEnd (node : Node) : Nat := 0x98 + alignUp (0x18 + (0x42 + node.name.length * 2)) 8

/-- The room that the record of a node asks for its data or its index. -/
def Builder.contentRoom (builder : Builder) (place : Nat) (node : Node) : Nat :=
  if node.is_dir then
    if builder.indexBlocks place node = 0 then
      alignUp (0x48 + (residentLength (builder.directoryLengths place node) + 0x10)) 8
    else
      0x58 + alignUp (0x48 +
        (runLength (builder.indexStart place) (builder.indexBlocks place node) + 1)) 8 +
        alignUp (0x28 + bitmapLength (builder.indexBlocks place node)) 8
  else if node.data.length ≤ residentDataBudget then alignUp (0x18 + node.data.length) 8
  else 0

/-- The record of a node holds its name, its content and an end of eight bytes. -/
def Builder.UserRecordFits (builder : Builder) (place : Nat) (node : Node) : Prop :=
  node.nameEnd + builder.contentRoom place node + 8 ≤ RECORD

section Rooms

variable {builder : Builder} {place : Nat} {node placed : Node}

theorem offsetSizeFrom_le (delta : Int) (rounds width : Nat) :
    offsetSizeFrom delta rounds width ≤ width + rounds := by
  induction rounds generalizing width with
  | zero => exact .refl
  | succ rounds induction =>
    rw [offsetSizeFrom]
    split
    · omega
    · have later := induction (width + 1)
      omega

theorem runLength_le (lcn clusters : Nat) : runLength lcn clusters ≤ 17 := by
  have first := Ntfs.lengthSize_le clusters
  have second : offsetSize (some (lcn : Int)) ≤ 8 := offsetSizeFrom_le _ 7 1
  unfold runLength
  omega

theorem mappingPairs_one {lcn clusters : Nat} (some_clusters : clusters ≠ 0) :
    ∃ pairs, mappingPairs 64 0 [⟨clusters, some lcn⟩] = some pairs ∧
      pairs.length = runLength lcn clusters := by
  have short := runLength_le lcn clusters
  unfold runLength at short
  have delta : (Ntfs.Run.mk clusters (some lcn)).delta 0 = some (lcn : Int) := by
    rw [Ntfs.Run.delta, Option.map_some, sub_zero]
  rw [mappingPairs, delta, encodeRun, if_neg some_clusters]
  dsimp only
  rw [if_neg (by omega)]
  dsimp only
  rw [mappingPairs, Option.map_some, List.append_nil]
  refine ⟨_, rfl, ?_⟩
  rw [List.length_cons, List.length_append, Ntfs.littleEndian_length, Ntfs.littleEndian_length,
    runLength]
  omega

theorem fitsFrom_append (offset : Nat) (attr : Attr) (rest : List Attr) {room : AttrRoom}
    (room_eq : attr.room = some room) (fits : offset + room.checked + 8 ≤ RECORD) :
    fitsFrom offset (attr :: rest) = fitsFrom (offset + room.stored) rest := by
  rw [fitsFrom, room_eq]
  dsimp only
  rw [decide_eq_true fits, Bool.true_and]

theorem fitsFrom_last (offset : Nat) (attr : Attr) {room : AttrRoom}
    (room_eq : attr.room = some room) (less : room.stored ≤ room.checked) :
    fitsFrom offset [attr] = true ↔ offset + room.checked + 8 ≤ RECORD := by
  rw [fitsFrom, room_eq]
  dsimp only
  rw [fitsFrom, Bool.and_eq_true, decide_eq_true_eq, decide_eq_true_eq]
  omega

theorem times_length (timestamp : Nat) : (times timestamp).length = 32 := by
  simp [times, leBytes_length]

theorem unnamed_room (name_offset value_length : Nat)
    (aligned : alignUp name_offset 8 = name_offset) :
    roomOf name_offset ([] : Bytes).length value_length =
      ⟨alignUp (name_offset + value_length) 8, alignUp (name_offset + value_length) 8⟩ := by
  rw [roomOf, List.length_nil, Nat.add_zero, aligned, Nat.sub_self, Nat.zero_add]

theorem unnamedAttr_room (attr_type : AttrType) (value : Bytes) (indexed : Nat) :
    (Attr.resident attr_type [] value indexed).room =
      some ⟨alignUp (0x18 + value.length) 8, alignUp (0x18 + value.length) 8⟩ :=
  congrArg some (unnamed_room _ _ rfl)

theorem si72_room (timestamp file_attrs security_id : Nat) :
    (si72 timestamp file_attrs security_id).room = some ⟨0x60, 0x60⟩ := by
  simp only [si72, Attr.room, List.length_append, times_length, leBytes_length, zeros_length]
  rfl

theorem fileNameValue_room (timestamp : Nat) (name : Bytes) (parent_record parent_seq flags
    alloc_size data_size namespace_ : Nat) :
    (fileNameValue timestamp name parent_record parent_seq flags alloc_size data_size
      namespace_).room = some ⟨alignUp (0x18 + (0x42 + name.length * 2)) 8,
        alignUp (0x18 + (0x42 + name.length * 2)) 8⟩ := by
  have length : 8 + (32 + (8 + (8 + (4 + (4 + (1 + (1 + name.length * 2))))))) =
      0x42 + name.length * 2 := by omega
  rw [fileNameValue, unnamedAttr_room]
  simp [times_length, leBytes_length, zeros_length, utf16Of_length, length]

theorem indexRootValue_length (entries : Bytes) (flag : Nat) :
    (indexRootValue entries flag).length = 0x20 + entries.length := by
  simp only [indexRootValue, List.length_append, leBytes_length, zeros_length]
  omega

theorem fitsFrom_named (named : validName node.name = true) (timestamp file_attrs security_id
    parent_record : Nat) (attrs : List Attr) :
    fitsFrom 0x38 ([si72 timestamp file_attrs security_id,
      userFileName timestamp node parent_record] ++ attrs) = fitsFrom node.nameEnd attrs := by
  have length := validName_length named
  have short := alignUp_le (0x18 + (0x42 + node.name.length * 2))
  rw [List.cons_append, List.cons_append, List.nil_append,
    fitsFrom_append _ _ _ (si72_room _ _ _) (by decide),
    userFileName, fitsFrom_append _ _ _ (fileNameValue_room _ _ _ _ _ _ _ _)]
  · rfl
  · dsimp only
    unfold RECORD
    omega

theorem nameEnd_le (named : validName node.name = true) : node.nameEnd ≤ 759 := by
  have length := validName_length named
  have short := alignUp_le (0x18 + (0x42 + node.name.length * 2))
  unfold Node.nameEnd
  omega

theorem index_room (value_length : Nat) : roomOf 0x18 indexName.length value_length =
    ⟨alignUp (0x28 + value_length) 8, alignUp (0x20 + value_length) 8⟩ := by
  have length : indexName.length = 8 := rfl
  rw [length, roomOf]
  have start : alignUp (0x18 + 8) 8 = 0x20 := rfl
  rw [start, ← Nat.add_assoc]

theorem indexAttr_room (attr_type : AttrType) (value : Bytes) :
    (Attr.resident attr_type indexName value 0).room =
      some ⟨alignUp (0x28 + value.length) 8, alignUp (0x20 + value.length) 8⟩ :=
  congrArg some (index_room _)

theorem allocation_room (pairs_length : Nat) : roomOf 0x40 indexName.length pairs_length =
    ⟨alignUp (0x50 + pairs_length) 8, alignUp (0x48 + pairs_length) 8⟩ := by
  have length : indexName.length = 8 := rfl
  rw [length, roomOf]
  have start : alignUp (0x40 + 8) 8 = 0x48 := rfl
  rw [start, ← Nat.add_assoc]

theorem bitmapValue_length (block_count : Nat) :
    (bitmapValue block_count).length = bitmapLength block_count := by
  rw [bitmapValue, List.length_map, List.length_range]

theorem residentLength_le {lengths : List Nat} (none_needed : indexBlockCount lengths = 0) :
    residentLength lengths + 0x10 ≤ ROOT_ENTRY_BUDGET := by
  unfold indexBlockCount at none_needed
  split at none_needed
  · next fits => exact fits
  · have positive : 0 < levelBlocks 8 false lengths := levelBlocks_pos 7 false lengths
    omega

theorem content_fits {offset : Nat} (low : offset ≤ 759)
    (at_place : PlacedNode builder place node placed) :
    ∃ attrs, placed.contentAttrs = .ok attrs ∧ (fitsFrom offset attrs = true ↔
      offset + builder.contentRoom place node + 8 ≤ RECORD) := by
  have same := at_place.same
  have record : RECORD = 1024 := rfl
  have sort : placed.is_dir = node.is_dir := by rw [same]
  have data : placed.data = node.data := by rw [same]
  have clusters : placed.data_clusters = node.neededClusters := by rw [same]
  unfold Builder.contentRoom Node.contentAttrs
  rw [sort, data, clusters]
  split
  · next directory =>
    have room := at_place.index directory
    have blocks_eq : builder.indexBlocks place node = placed.index.block_count := by
      rw [Builder.indexBlocks, if_pos directory, room.count]
    rw [blocks_eq, dirIndexAttrs]
    by_cases none_needed : placed.index.block_count = 0
    · obtain ⟨no_children, length⟩ := room.resident none_needed
      have fits := residentLength_le (room.count.symm.trans none_needed)
      have budget : ROOT_ENTRY_BUDGET = 336 := rfl
      rw [if_pos none_needed, if_pos none_needed, no_children, length, if_neg (by omega)]
      refine ⟨_, rfl, ?_⟩
      rw [if_neg Bool.false_ne_true, fitsFrom_last _ _ (indexAttr_room _ _)
        (alignUp_mono (by omega)), indexRootValue_length, length]
      have joined : 0x28 + (0x20 + (residentLength (builder.directoryLengths place node) + 0x10)) =
          0x48 + (residentLength (builder.directoryLengths place node) + 0x10) := by omega
      rw [joined]
    · obtain ⟨some_children, lcn, -⟩ := room.blocks none_needed
      have bounded := room.bounded
      rw [if_neg none_needed, if_neg none_needed, some_children, if_neg (by simp),
        if_neg (Nat.not_lt.mpr bounded), lcn]
      refine ⟨_, rfl, ?_⟩
      obtain ⟨pairs, mapped, pairs_length⟩ :=
        @mappingPairs_one (builder.indexStart place) placed.index.block_count none_needed
      have pairs_le := runLength_le (builder.indexStart place) placed.index.block_count
      have root_length : (indexRootValue (writeEndEntry (some placed.index.root_child_vcn))
          1).length = 0x38 := by
        rw [indexRootValue_length, writeEndEntry_length]
        rfl
      have root_room : Attr.room (.resident .index_root indexName
          (indexRootValue (writeEndEntry (some placed.index.root_child_vcn)) 1) 0) =
          some ⟨0x60, 0x58⟩ := by
        rw [indexAttr_room, root_length]
        rfl
      have runs_room : (allocationRun indexName (builder.indexStart place)
          placed.index.block_count).room = some ⟨alignUp (0x50 + (pairs.length + 1)) 8,
            alignUp (0x48 + (pairs.length + 1)) 8⟩ := by
        rw [allocationRun, Attr.room, mapped, Option.map_some, allocation_room]
      have checked_le := alignUp_le (0x50 + (pairs.length + 1))
      rw [if_pos rfl, fitsFrom_append _ _ _ root_room (by dsimp only; omega),
        fitsFrom_append _ _ _ runs_room (by dsimp only; omega),
        fitsFrom_last _ _ (indexAttr_room _ _) (alignUp_mono (by omega)),
        bitmapValue_length, pairs_length]
      dsimp only
      omega
  · next no_directory =>
    by_cases small : node.data.length ≤ residentDataBudget
    · have none_needed : node.neededClusters = 0 := by
        rw [Node.neededClusters, if_pos (.inr small)]
      rw [none_needed, if_neg (Nat.lt_irrefl 0), if_pos small]
      refine ⟨_, rfl, ?_⟩
      rw [residentData, fitsFrom_last _ _ (unnamedAttr_room _ _ _) .refl]
    · have some_needed : node.neededClusters ≠ 0 := by
        rw [Node.neededClusters, if_neg (by simp [no_directory, small])]
        unfold CLUSTER residentDataBudget at *
        omega
      obtain ⟨pairs, mapped, pairs_length⟩ := @mappingPairs_one placed.data_lcn _ some_needed
      have pairs_le := runLength_le placed.data_lcn node.neededClusters
      rw [if_pos (Nat.pos_of_ne_zero some_needed), if_neg small]
      refine ⟨_, rfl, ?_⟩
      have runs_room : (dataRun [] placed.data_lcn node.neededClusters node.data.length).room =
          some ⟨alignUp (0x40 + (pairs.length + 1)) 8, alignUp (0x40 + (pairs.length + 1)) 8⟩ := by
        rw [dataRun, Attr.room, mapped, Option.map_some, unnamed_room _ _ rfl]
      have checked_le := alignUp_le (0x40 + (pairs.length + 1))
      rw [fitsFrom_last _ _ runs_room .refl]
      dsimp only
      omega

theorem contentRoom_small (directory : node.is_dir = true)
    (small : residentLength (builder.directoryLengths place node) ≤ capacity) :
    builder.indexBlocks place node ≤ 1 ∧ builder.contentRoom place node ≤ 408 := by
  have blocks := indexBlockCount_le_one small
  have needed : builder.indexBlocks place node =
      indexBlockCount (builder.directoryLengths place node) := by
    rw [Builder.indexBlocks, if_pos directory]
  rw [Builder.contentRoom, if_pos directory, needed]
  refine ⟨blocks, ?_⟩
  split
  · next none_needed =>
    have fits := residentLength_le none_needed
    have budget : ROOT_ENTRY_BUDGET = 336 := rfl
    have room := alignUp_mono (show 0x48 +
      (residentLength (builder.directoryLengths place node) + 0x10) ≤ 408 by omega)
    exact room
  · next some_needed =>
    have one : indexBlockCount (builder.directoryLengths place node) = 1 := by omega
    have runs := runLength_le (builder.indexStart place) 1
    have allocation := alignUp_mono (show 0x48 + (runLength (builder.indexStart place) 1 + 1) ≤
      0x48 + 18 by omega)
    have allocation_eq : alignUp (0x48 + 18) 8 = 96 := rfl
    have bitmap : alignUp (0x28 + bitmapLength 1) 8 = 48 := rfl
    rw [one, bitmap]
    omega

end Rooms

end R4OS.NtfsBuilder
