import R4OS.NtfsFormat.Fixups

/-!
# Entries of index blocks

An index block holds entries one behind another, and a last entry without a key.  An entry may refer
to the block of the keys before it.
-/

namespace R4OS.NtfsFormat

open Text Block

def INDX_MAGIC : Nat := 0x58444E49

def INDEX_ENTRY_NODE : Nat := 0x0001

def INDEX_ENTRY_END : Nat := 0x0002

structure IndexHeader where
  entries_offset : Nat
  index_length : Nat
  allocated_size : Nat
  flags : Nat

def IndexHeader.parse (bytes : Bytes) : Option IndexHeader :=
  if bytes.length < 0x10 then none
  else
    let header : IndexHeader :=
      { entries_offset := readLe 4 bytes 0x00
        index_length := readLe 4 bytes 0x04
        allocated_size := readLe 4 bytes 0x08
        flags := readLe 1 bytes 0x0C }
    if header.entries_offset < 0x10 ∨ header.index_length < header.entries_offset then none
    else some header

def IndexHeader.hasSubNodes (header : IndexHeader) : Bool := header.flags &&& 0x01 != 0

structure IndexBlock where
  vcn : Nat
  header : IndexHeader
  entries : Bytes

def IndexBlock.parse (block : Bytes) : Option IndexBlock :=
  if block.length < 0x28 then none
  else if readLe 4 block 0x00 ≠ INDX_MAGIC then none
  else
    match IndexHeader.parse (block.drop 0x18) with
    | none => none
    | some header =>
      let entries_start := 0x18 + header.entries_offset
      let entries_end := 0x18 + header.index_length
      if block.length < entries_start ∨ block.length < entries_end ∨ entries_end < entries_start
      then none
      else some {
        vcn := readLe 8 block 0x10
        header := header
        entries := slice block entries_start (entries_end - entries_start) }

structure IndexEntry where
  file_reference : Nat
  entry_length : Nat
  key_length : Nat
  flags : Nat
  key : Bytes
  sub_node_vcn : Option Nat

def IndexEntry.isEnd (entry : IndexEntry) : Bool := entry.flags &&& INDEX_ENTRY_END != 0

def IndexEntry.hasSubNode (entry : IndexEntry) : Bool := entry.flags &&& INDEX_ENTRY_NODE != 0

/-- The entry at a place among entries. -/
def entryAt (entries : Bytes) (base : Nat) : Option IndexEntry :=
  let entry_length := readLe 2 entries (base + 0x08)
  let key_length := readLe 2 entries (base + 0x0A)
  let flags := readLe 2 entries (base + 0x0C)
  if entries.length < base + 0x10 then none
  else if entry_length < 0x10 ∨ entries.length < base + entry_length then none
  else if 0 < key_length ∧ entry_length < 0x10 + key_length then none
  else if flags &&& INDEX_ENTRY_NODE ≠ 0 ∧ entry_length < 0x10 + 8 then none
  else some {
    file_reference := readLe 8 entries base
    entry_length := entry_length
    key_length := key_length
    flags := flags
    key := slice entries (base + 0x10) key_length
    sub_node_vcn :=
      if flags &&& INDEX_ENTRY_NODE ≠ 0 then some (readLe 8 entries (base + entry_length - 8))
      else none }

theorem entryAt_length {entries : Bytes} {base : Nat} {entry : IndexEntry}
    (found : entryAt entries base = some entry) :
    0x10 ≤ entry.entry_length ∧ base + entry.entry_length ≤ entries.length := by
  unfold entryAt at found
  dsimp only at found
  split at found
  · cases found
  split at found
  · cases found
  next bounds =>
  split at found
  · cases found
  split at found
  · cases found
  · cases found
    dsimp only
    omega

/-- The entries from a place on, up to the last one. -/
def entriesFrom (entries : Bytes) (offset : Nat) : List IndexEntry :=
  match _found : entryAt entries offset with
  | none => []
  | some entry =>
    if entry.isEnd then [entry] else entry :: entriesFrom entries (offset + entry.entry_length)
termination_by entries.length - offset
decreasing_by
  have bounds := entryAt_length _found
  omega

theorem entriesFrom_end {entries : Bytes} {offset : Nat} {entry : IndexEntry}
    (found : entryAt entries offset = some entry) (last : entry.isEnd = true) :
    entriesFrom entries offset = [entry] := by
  rw [entriesFrom]
  split
  · next missing => cases found.symm.trans missing
  · next other present =>
    obtain rfl := Option.some.inj (found.symm.trans present)
    rw [if_pos last]

theorem entriesFrom_next {entries : Bytes} {offset : Nat} {entry : IndexEntry}
    (found : entryAt entries offset = some entry) (more : entry.isEnd = false) :
    entriesFrom entries offset =
      entry :: entriesFrom entries (offset + entry.entry_length) := by
  rw [entriesFrom]
  split
  · next missing => cases found.symm.trans missing
  · next other present =>
    obtain rfl := Option.some.inj (found.symm.trans present)
    rw [if_neg (by rw [more]; exact Bool.false_ne_true)]

end R4OS.NtfsFormat
