import R4OS.NtfsBuilder.DirectoryIndex

/-!
# Reading an index back

A finished block is read as on a volume: its fixups are removed, its header is parsed, and its
entries are walked.  A closed block reads as the entries it was closed with.
-/

namespace R4OS.NtfsBuilder

open Text Block NtfsFormat

/-- A reference with the value of a file name. -/
def indexKey (entry : IndexEntry) : Bytes := leBytes 8 entry.file_reference ++ entry.key

/-- What entries say, when a last entry without a key ends them. -/
def linkedBlock (entries : List IndexEntry) : Option (Trees.Block Bytes) :=
  match entries.getLast? with
  | none => none
  | some last =>
    if last.isEnd then
      some ⟨entries.dropLast.map fun entry => ⟨indexKey entry, entry.sub_node_vcn⟩,
        last.sub_node_vcn⟩
    else none

/-- A block with its parts. -/
structure ReadBlock where
  parsed : IndexBlock
  entries : List IndexEntry
  linked : Trees.Block Bytes

def readBlock (bytes : Bytes) : Option ReadBlock :=
  match applyFixups bytes with
  | .error _ => none
  | .ok restored =>
    match IndexBlock.parse restored with
    | none => none
    | some parsed =>
      match linkedBlock (entriesFrom parsed.entries 0) with
      | none => none
      | some linked => some ⟨parsed, entriesFrom parsed.entries 0, linked⟩

def DirIndex.readAt (index : DirIndex) (vcn : Nat) : Option ReadBlock :=
  if vcn < index.block_count then readBlock (slice index.blocks (vcn * INDEX_BLOCK) INDEX_BLOCK)
  else none

theorem leBytes_ofLeBytes (bytes : Bytes) : leBytes bytes.length (ofLeBytes bytes) = bytes := by
  induction bytes with
  | nil => rfl
  | cons byte rest induction =>
    have low := byte.toNat_lt
    have rest_eq : (byte.toNat + 256 * ofLeBytes rest) / 256 = ofLeBytes rest := by omega
    have head_eq : UInt8.ofNat (byte.toNat + 256 * ofLeBytes rest) = byte := by
      apply UInt8.toNat_inj.mp
      rw [UInt8.toNat_ofNat']
      omega
    rw [ofLeBytes, List.length_cons, leBytes, rest_eq, head_eq, induction]

section Closed

variable {entries : List PendingEntry} {end_child : Option Nat} {vcn : Nat} {bytes : Bytes}

theorem indexKey_readBack {pending : PendingEntry} (reference : 8 ≤ pending.key.length) :
    indexKey (readBack pending) = pending.key := by
  have head : (pending.key.take 8).length = 8 := List.length_take_of_le reference
  have whole := leBytes_ofLeBytes (pending.key.take 8)
  rw [head] at whole
  rw [indexKey, readBack, whole, List.take_append_drop]

theorem linkedBlock_readBack (writable : ∀ pending ∈ entries, Writable pending) :
    linkedBlock (entries.map readBack ++ [readBackEnd end_child]) = some ⟨entries, end_child⟩ := by
  have keys : (entries.map readBack).map (fun entry => Trees.Entry.mk (indexKey entry)
      entry.sub_node_vcn) = entries := by
    rw [List.map_map]
    conv => rhs; rw [← List.map_id entries]
    refine List.map_congr_left fun pending member => ?_
    rw [Function.comp_apply, indexKey_readBack (writable pending member).reference]
    rfl
  rw [linkedBlock, List.getLast?_concat, List.dropLast_concat, keys]
  exact if_pos readBackEnd_isEnd

theorem indexBody_length (writable : ∀ pending ∈ entries, Writable pending) :
    (indexBody entries end_child).length =
      (entries.map pendingLength).sum + endLength end_child := by
  have entries_length : (entries.flatMap writeEntry).length = (entries.map pendingLength).sum := by
    rw [List.length_flatMap]
    congr 1
    exact List.map_congr_left fun pending member =>
      writeEntry_length (writable pending member).reference
  rw [indexBody, List.length_append, writeEndEntry_length, entries_length]

theorem endLength_le (child : Option Nat) : endLength child ≤ 0x18 := by
  unfold endLength
  split <;> decide

theorem indxHeader_length (vcn used_end : Nat) (has_children : Bool) :
    (indxHeader vcn used_end has_children).length = 0x25 := by
  simp [indxHeader, leBytes_length]

structure ClosedBlock (entries : List PendingEntry) (end_child : Option Nat) (vcn : Nat)
    (read : ReadBlock) : Prop where
  linked : read.linked = ⟨entries, end_child⟩
  walked : read.entries = entries.map readBack ++ [readBackEnd end_child]
  vcn : read.parsed.vcn = vcn
  allocated : read.parsed.header.allocated_size = INDEX_BLOCK - 0x18
  inside : read.parsed.header.index_length ≤ read.parsed.header.allocated_size
  flags : read.parsed.header.hasSubNodes = anyChild entries end_child

/-- The parts of a block before its fixups. -/
structure BlockFields (entries : List PendingEntry) (end_child : Option Nat) (vcn : Nat)
    (block : Bytes) : Prop where
  length : block.length = INDEX_BLOCK
  magic : readLe 4 block 0x00 = INDX_MAGIC
  array : readLe 2 block 0x04 = 0x28
  words : readLe 2 block 0x06 = 9
  number : readLe 8 block 0x10 = vcn
  offset : readLe 4 block 0x18 = 0x28
  used : readLe 4 block 0x1C = 0x28 + (indexBody entries end_child).length
  allocated : readLe 4 block 0x20 = INDEX_BLOCK - 0x18
  flags : readLe 1 block 0x24 = if anyChild entries end_child then 1 else 0
  body : slice block 0x40 (indexBody entries end_child).length = indexBody entries end_child

theorem indexBlock_fields (short : (indexBody entries end_child).length ≤ INDEX_BLOCK - 0x40)
    (number : vcn < 2 ^ 64) :
    BlockFields entries end_child vcn (indexBlock vcn entries end_child) := by
  generalize body_eq : indexBody entries end_child = body at short
  generalize flag_eq : anyChild entries end_child = flag
  have body_fits : 0x40 + body.length ≤ (zeros INDEX_BLOCK).length := by
    rw [zeros_length]
    unfold INDEX_BLOCK at short ⊢
    omega
  have filled_length := put_length body_fits
  rw [zeros_length] at filled_length
  have header_length := indxHeader_length vcn (0x40 + body.length) flag
  have fits : 0 + (indxHeader vcn (0x40 + body.length) flag).length ≤
      (put (zeros INDEX_BLOCK) 0x40 body).length := by
    rw [header_length, filled_length]
    decide
  have field {size value place : Nat} (front rest : Bytes)
      (split : indxHeader vcn (0x40 + body.length) flag = front ++ (leBytes size value ++ rest))
      (start : front.length = place) (small : value < 256 ^ size) :
      readLe size (indexBlock vcn entries end_child) place = value := by
    have within : place + size ≤ (indxHeader vcn (0x40 + body.length) flag).length := by
      rw [split, List.length_append, List.length_append, leBytes_length]
      omega
    have put_field := slice_put_within fits within
    rw [Nat.zero_add] at put_field
    rw [indexBlock, body_eq, flag_eq, writeIndxHeader, readLe, put_field]
    exact readLe_field front rest split start small
  have word : 0x28 + body.length < 256 ^ 4 := by
    unfold INDEX_BLOCK at short
    omega
  have used_eq : 0x40 + body.length - 0x18 = 0x28 + body.length := by omega
  refine ⟨?_, field [] _ rfl rfl (by decide), field (leBytes 4 INDX_MAGIC) _ rfl rfl (by decide),
    field (leBytes 4 INDX_MAGIC ++ leBytes 2 0x28) _ rfl rfl (by decide),
    field (leBytes 4 INDX_MAGIC ++ leBytes 2 0x28 ++ leBytes 2 9 ++ leBytes 8 0) _ rfl rfl number,
    field (leBytes 4 INDX_MAGIC ++ leBytes 2 0x28 ++ leBytes 2 9 ++ leBytes 8 0 ++ leBytes 8 vcn) _
      rfl rfl (by decide), ?_, ?_, ?_, ?_⟩
  · rw [indexBlock, body_eq, flag_eq, writeIndxHeader, put_length fits, filled_length]
  · rw [body_eq, ← used_eq]
    exact field (leBytes 4 INDX_MAGIC ++ leBytes 2 0x28 ++ leBytes 2 9 ++ leBytes 8 0 ++
      leBytes 8 vcn ++ leBytes 4 0x28) _ rfl rfl (by rwa [used_eq])
  · exact field (leBytes 4 INDX_MAGIC ++ leBytes 2 0x28 ++ leBytes 2 9 ++ leBytes 8 0 ++
      leBytes 8 vcn ++ leBytes 4 0x28 ++ leBytes 4 (0x40 + body.length - 0x18)) _ rfl rfl
      (by decide)
  · rw [flag_eq]
    exact field (leBytes 4 INDX_MAGIC ++ leBytes 2 0x28 ++ leBytes 2 9 ++ leBytes 8 0 ++
      leBytes 8 vcn ++ leBytes 4 0x28 ++ leBytes 4 (0x40 + body.length - 0x18) ++
      leBytes 4 (INDEX_BLOCK - 0x18)) [] rfl rfl (by split <;> decide)
  · rw [indexBlock, body_eq, flag_eq, writeIndxHeader,
      slice_put_other fits (.inr (by rw [header_length]; decide)), slice_put body_fits]

/-- The header that is parsed of a closed block. -/
def closedHeader (entries : List PendingEntry) (end_child : Option Nat) : IndexHeader where
  entries_offset := 0x28
  index_length := 0x28 + (indexBody entries end_child).length
  allocated_size := INDEX_BLOCK - 0x18
  flags := if anyChild entries end_child then 1 else 0

theorem parse_fields {block restored : Bytes} (fields : BlockFields entries end_child vcn block)
    (short : (indexBody entries end_child).length ≤ INDEX_BLOCK - 0x40)
    (length : restored.length = block.length)
    (agree : AgreeOn (OutsideArray 0x28 8) restored block) :
    IndexBlock.parse restored =
      some ⟨vcn, closedHeader entries end_child, indexBody entries end_child⟩ := by
  have whole := fields.length
  unfold INDEX_BLOCK at whole short
  have head {size place : Nat} (inside : place + size ≤ 0x28) :
      readLe size restored place = readLe size block place := by
    rw [readLe, readLe]
    congr 1
    exact slice_congr fun index small => agree _ (.inl (by omega))
  have dropped {size place : Nat} (inside : 0x18 + place + size ≤ 0x28) :
      readLe size (restored.drop 0x18) place = readLe size block (0x18 + place) := by
    rw [← head inside, readLe, readLe, slice, slice, List.drop_drop]
  have header : IndexHeader.parse (restored.drop 0x18) =
      some (closedHeader entries end_child) := by
    have offset := (@dropped 4 0x00 (by decide)).trans fields.offset
    have used := (@dropped 4 0x04 (by decide)).trans fields.used
    have allocated := (@dropped 4 0x08 (by decide)).trans fields.allocated
    have flags := (@dropped 1 0x0C (by decide)).trans fields.flags
    unfold IndexHeader.parse
    dsimp only
    rw [if_neg (by rw [List.length_drop]; omega), offset, used, allocated, flags,
      if_neg (by omega)]
    rfl
  have body : slice restored 0x40 (indexBody entries end_child).length =
      indexBody entries end_child := by
    rw [← fields.body]
    refine (slice_congr fun index small => ?_).trans (congrArg (slice block 0x40) ?_)
    · exact agree _ (.inr (by omega))
    · rw [fields.body]
  have magic := (@head 4 0x00 (by decide)).trans fields.magic
  have number := (@head 8 0x10 (by decide)).trans fields.number
  unfold IndexBlock.parse
  dsimp only
  rw [if_neg (by omega), if_neg (not_not.mpr magic), header]
  dsimp only
  have starts : (closedHeader entries end_child).entries_offset = 0x28 := rfl
  have ends : (closedHeader entries end_child).index_length =
      0x28 + (indexBody entries end_child).length := rfl
  rw [starts, ends, if_neg (by omega), number]
  have size : 0x18 + (0x28 + (indexBody entries end_child).length) - (0x18 + 0x28) =
      (indexBody entries end_child).length := by omega
  rw [size, body]

theorem readBlock_closed (writable : ∀ pending ∈ entries, Writable pending)
    (fits : (entries.map pendingLength).sum ≤ capacity)
    (small : ∀ child ∈ end_child, child < 2 ^ 64)
    (number : vcn < 2 ^ 64) :
    ∃ bytes read, installFixups (indexBlock vcn entries end_child) 0 = .ok bytes ∧
      bytes.length = INDEX_BLOCK ∧ readBlock bytes = some read ∧
      ClosedBlock entries end_child vcn read := by
  have end_short := endLength_le end_child
  have short : (indexBody entries end_child).length ≤ INDEX_BLOCK - 0x40 := by
    rw [indexBody_length writable]
    unfold capacity INDEX_BLOCK at fits
    unfold INDEX_BLOCK
    omega
  have fields := indexBlock_fields short number
  generalize indexBlock vcn entries end_child = block at fields ⊢
  have length := fields.length
  have array : usaOffset block = 0x28 := fields.array
  have words : usaCount block = 9 := fields.words
  have admitted : fixupSectors block = .ok 8 := by
    unfold fixupSectors
    rw [array, words, length]
    rfl
  have placed : ArrayPlaced (usaOffset block) 8 block := by
    rw [array]
    exact ⟨length, by decide, by decide, by decide⟩
  obtain ⟨stamped, restored, installed, stamped_length, applied, restored_length, agree⟩ :=
    applyFixups_installFixups 0 admitted placed.apart
  rw [array] at agree
  have parsed := parse_fields fields short restored_length agree
  have walked : entriesFrom (indexBody entries end_child) 0 =
      entries.map readBack ++ [readBackEnd end_child] := entriesFrom_written [] writable small
  refine ⟨stamped, ⟨⟨vcn, closedHeader entries end_child, indexBody entries end_child⟩,
    entries.map readBack ++ [readBackEnd end_child], ⟨entries, end_child⟩⟩,
    installed, stamped_length.trans length, ?_, ?_⟩
  · rw [readBlock, applied]
    dsimp only
    rw [parsed]
    dsimp only
    rw [walked, linkedBlock_readBack writable]
  · refine ⟨rfl, rfl, rfl, rfl, ?_, ?_⟩
    · unfold INDEX_BLOCK at short
      change 0x28 + (indexBody entries end_child).length ≤ 4096 - 0x18
      omega
    · change ((if anyChild entries end_child then 1 else 0) &&& 0x01 != 0) =
        anyChild entries end_child
      cases anyChild entries end_child <;> rfl

theorem closeIndexBlock_ok {finished after : List Bytes}
    (closed : closeIndexBlock finished entries end_child = .ok (after, vcn))
    (writable : ∀ pending ∈ entries, Writable pending)
    (fits : (entries.map pendingLength).sum ≤ capacity)
    (small : ∀ child ∈ end_child, child < 2 ^ 64) :
    vcn = finished.length ∧ ∃ bytes read, after = finished ++ [bytes] ∧
      bytes.length = INDEX_BLOCK ∧ readBlock bytes = some read ∧
      ClosedBlock entries end_child finished.length read := by
  unfold closeIndexBlock at closed
  split at closed
  · cases closed
  next room =>
  have number : finished.length < 2 ^ 64 := by
    unfold MAX_INDEX_BLOCKS at room
    omega
  obtain ⟨bytes, read, installed, sized, found, closed_block⟩ :=
    readBlock_closed writable fits small number
  rw [installed] at closed
  cases closed
  exact ⟨rfl, bytes, read, rfl, sized, found, closed_block⟩

theorem closeIndexBlock_room {finished after : List Bytes}
    (closed : closeIndexBlock finished entries end_child = .ok (after, vcn)) :
    finished.length < MAX_INDEX_BLOCKS := by
  unfold closeIndexBlock at closed
  split at closed
  · cases closed
  · next room => exact Nat.lt_of_not_le room

end Closed

end R4OS.NtfsBuilder
