import R4OS.NtfsFormat.IndexEntries
import R4OS.Numeric.CLayout
import R4OS.Trees.Linked

/-!
# Written index entries

The builder writes the entries of an index block one behind another.  What it writes is read back,
key by key and child by child.
-/

namespace R4OS.NtfsBuilder

open Text Block NtfsFormat
open CLayout (alignUp)

def INDEX_BLOCK : Nat := 4096

/-- A reference of eight bytes with the value of a file name, and the block before it. -/
abbrev PendingEntry := Trees.Entry Bytes

def entryLength (fn_value_len : Nat) (has_child : Bool) : Nat :=
  alignUp (0x10 + fn_value_len) 8 + if has_child then 8 else 0

def pendingLength (pending : PendingEntry) : Nat :=
  entryLength (pending.key.length - 8) pending.child.isSome

def childBytes (child : Option Nat) : Bytes := child.elim [] (leBytes 8)

def nodeFlag (child : Option Nat) : Nat := if child.isSome then INDEX_ENTRY_NODE else 0

/-- The bytes between the value of an entry and its child. -/
def entryPadding (fn_value_len : Nat) : Nat :=
  alignUp (0x10 + fn_value_len) 8 - (0x10 + fn_value_len)

def writeEntry (pending : PendingEntry) : Bytes :=
  pending.key.take 8 ++ (leBytes 2 (pendingLength pending) ++
    (leBytes 2 (pending.key.length - 8) ++ (leBytes 2 (nodeFlag pending.child) ++ (zeros 2 ++
      (pending.key.drop 8 ++ (zeros (entryPadding (pending.key.length - 8)) ++
        childBytes pending.child))))))

def endLength (child : Option Nat) : Nat := if child.isSome then 0x18 else 0x10

def endFlags (child : Option Nat) : Nat :=
  if child.isSome then INDEX_ENTRY_END ||| INDEX_ENTRY_NODE else INDEX_ENTRY_END

def writeEndEntry (child : Option Nat) : Bytes :=
  zeros 8 ++ (leBytes 2 (endLength child) ++ (leBytes 2 0 ++ (leBytes 2 (endFlags child) ++
    (zeros 2 ++ childBytes child))))

/-- The header of a block that ends at a place. -/
def indxHeader (vcn used_end : Nat) (has_children : Bool) : Bytes :=
  leBytes 4 INDX_MAGIC ++ (leBytes 2 0x28 ++ (leBytes 2 9 ++ (leBytes 8 0 ++ (leBytes 8 vcn ++
    (leBytes 4 0x28 ++ (leBytes 4 (used_end - 0x18) ++ (leBytes 4 (INDEX_BLOCK - 0x18) ++
      leBytes 1 (if has_children then 1 else 0))))))))

def writeIndxHeader (block : Bytes) (vcn used_end : Nat) (has_children : Bool) : Bytes :=
  put block 0 (indxHeader vcn used_end has_children)

section Fields

variable {data middle : Bytes} {place size value : Nat}

theorem slice_field (front rest : Bytes) (split : data = front ++ (middle ++ rest))
    (start : front.length = place) (sized : middle.length = size) :
    slice data place size = middle := by
  rw [split, slice_append_right (by omega), start, Nat.sub_self, slice_append_left sized]

theorem readLe_field (front rest : Bytes) (split : data = front ++ (leBytes size value ++ rest))
    (start : front.length = place) (small : value < 256 ^ size) :
    readLe size data place = value := by
  rw [readLe, slice_field front rest split start (leBytes_length size value),
    ofLeBytes_leBytes small]

end Fields

/-- Entries that can be written: whole references, short lengths, and children in a word. -/
structure Writable (pending : PendingEntry) : Prop where
  reference : 8 ≤ pending.key.length
  short : pendingLength pending < 2 ^ 16
  child : ∀ vcn ∈ pending.child, vcn < 2 ^ 64

def readBack (pending : PendingEntry) : IndexEntry where
  file_reference := ofLeBytes (pending.key.take 8)
  entry_length := pendingLength pending
  key_length := pending.key.length - 8
  flags := nodeFlag pending.child
  key := pending.key.drop 8
  sub_node_vcn := pending.child

/-- The last entry that is read from what is written. -/
def readBackEnd (child : Option Nat) : IndexEntry where
  file_reference := 0
  entry_length := endLength child
  key_length := 0
  flags := endFlags child
  key := []
  sub_node_vcn := child

section ReadBack

variable {pending : PendingEntry} {child : Option Nat}

theorem le_alignUp (place : Nat) : place ≤ alignUp place 8 := by
  unfold alignUp
  omega

theorem childBytes_length : (childBytes child).length = if child.isSome then 8 else 0 := by
  cases child with
  | none => rfl
  | some vcn => exact leBytes_length 8 vcn

theorem writeEntry_length (reference : 8 ≤ pending.key.length) :
    (writeEntry pending).length = pendingLength pending := by
  have aligned := le_alignUp (0x10 + (pending.key.length - 8))
  simp only [writeEntry, List.length_append, leBytes_length, zeros_length, List.length_take,
    List.length_drop, childBytes_length, pendingLength, entryLength, entryPadding]
  omega

theorem writeEndEntry_length (child : Option Nat) :
    (writeEndEntry child).length = endLength child := by
  simp only [writeEndEntry, List.length_append, leBytes_length, zeros_length, childBytes_length,
    endLength]
  split <;> rfl

theorem nodeFlag_node : nodeFlag child &&& INDEX_ENTRY_NODE ≠ 0 ↔ child.isSome = true := by
  unfold nodeFlag
  cases child.isSome <;> decide

theorem endFlags_node : endFlags child &&& INDEX_ENTRY_NODE ≠ 0 ↔ child.isSome = true := by
  unfold endFlags
  cases child.isSome <;> decide

theorem nodeFlag_end : (nodeFlag child &&& INDEX_ENTRY_END != 0) = false := by
  unfold nodeFlag
  cases child.isSome <;> decide

theorem endFlags_end : (endFlags child &&& INDEX_ENTRY_END != 0) = true := by
  unfold endFlags
  cases child.isSome <;> decide

theorem readBack_isEnd : (readBack pending).isEnd = false := nodeFlag_end

theorem readBackEnd_isEnd : (readBackEnd child).isEnd = true := endFlags_end

theorem child_field {data : Bytes} {place : Nat} (front rest : Bytes)
    (small : ∀ vcn ∈ child, vcn < 2 ^ 64) (split : data = front ++ (childBytes child ++ rest))
    (start : child.isSome = true → front.length + 8 = place) :
    (if child.isSome = true then some (readLe 8 data (place - 8)) else none) = child := by
  cases child with
  | none => rfl
  | some vcn =>
    have ends := start rfl
    have found : readLe 8 data (place - 8) = vcn :=
      readLe_field front rest split (by omega) (small vcn rfl)
    rw [found]
    rfl

theorem entryAt_writeEntry (front rest : Bytes) (writable : Writable pending) :
    entryAt (front ++ (writeEntry pending ++ rest)) front.length = some (readBack pending) := by
  have reference := writable.reference
  have short := writable.short
  have length := writeEntry_length reference
  have aligned := le_alignUp (0x10 + (pending.key.length - 8))
  have head : (pending.key.take 8).length = 8 := List.length_take_of_le reference
  have whole : pendingLength pending = alignUp (0x10 + (pending.key.length - 8)) 8 +
      if pending.child.isSome then 8 else 0 := rfl
  generalize data_eq : front ++ (writeEntry pending ++ rest) = data
  have data_length : data.length = front.length + (pendingLength pending + rest.length) := by
    rw [← data_eq, List.length_append, List.length_append, length]
  have front_length : (front ++ pending.key.take 8).length = front.length + 8 := by
    rw [List.length_append, head]
  have reference_field : readLe 8 data front.length = ofLeBytes (pending.key.take 8) := by
    rw [readLe, slice_field front _ (by rw [← data_eq, writeEntry]; simp; rfl) rfl head]
  have length_field : readLe 2 data (front.length + 0x08) = pendingLength pending :=
    readLe_field (front ++ pending.key.take 8) _ (by rw [← data_eq, writeEntry]; simp; rfl)
      front_length short
  have key_field : readLe 2 data (front.length + 0x0A) = pending.key.length - 8 :=
    readLe_field (front ++ pending.key.take 8 ++ leBytes 2 (pendingLength pending)) _
      (by rw [← data_eq, writeEntry]; simp; rfl)
      (by rw [List.length_append, front_length, leBytes_length]) (by omega)
  have flag_field : readLe 2 data (front.length + 0x0C) = nodeFlag pending.child :=
    readLe_field (front ++ pending.key.take 8 ++ leBytes 2 (pendingLength pending) ++
      leBytes 2 (pending.key.length - 8)) _ (by rw [← data_eq, writeEntry]; simp; rfl)
      (by rw [List.length_append, List.length_append, front_length, leBytes_length,
        leBytes_length])
      (by unfold nodeFlag; split <;> decide)
  have value_field : slice data (front.length + 0x10) (pending.key.length - 8) =
      pending.key.drop 8 :=
    slice_field (front ++ pending.key.take 8 ++ leBytes 2 (pendingLength pending) ++
      leBytes 2 (pending.key.length - 8) ++ leBytes 2 (nodeFlag pending.child) ++ zeros 2) _
      (by rw [← data_eq, writeEntry]; simp; rfl)
      (by simp [head, leBytes_length, zeros_length])
      List.length_drop
  have child_read : (if pending.child.isSome = true then
      some (readLe 8 data (front.length + pendingLength pending - 8)) else none) =
      pending.child := by
    refine child_field (front ++ pending.key.take 8 ++ leBytes 2 (pendingLength pending) ++
      leBytes 2 (pending.key.length - 8) ++ leBytes 2 (nodeFlag pending.child) ++ zeros 2 ++
      pending.key.drop 8 ++ zeros (entryPadding (pending.key.length - 8))) rest writable.child
      (by rw [← data_eq, writeEntry]; simp) fun some_child => ?_
    rw [if_pos some_child] at whole
    simp only [List.length_append, head, leBytes_length, zeros_length, List.length_drop,
      entryPadding]
    omega
  unfold entryAt
  dsimp only
  rw [reference_field, length_field, key_field, flag_field, value_field, if_neg (by omega),
    if_neg (by omega), if_neg (by omega), if_neg]
  · simp [nodeFlag_node, child_read, readBack]
  · rw [nodeFlag_node]
    rintro ⟨some_child, low⟩
    rw [if_pos some_child] at whole
    omega

theorem entryAt_writeEndEntry (front rest : Bytes) (small : ∀ vcn ∈ child, vcn < 2 ^ 64) :
    entryAt (front ++ (writeEndEntry child ++ rest)) front.length = some (readBackEnd child) := by
  have length := writeEndEntry_length child
  generalize data_eq : front ++ (writeEndEntry child ++ rest) = data
  have data_length : data.length = front.length + (endLength child + rest.length) := by
    rw [← data_eq, List.length_append, List.length_append, length]
  have whole : endLength child = if child.isSome then 0x18 else 0x10 := rfl
  have reference_field : readLe 8 data front.length = 0 := by
    rw [readLe, slice_field front _ (by rw [← data_eq, writeEndEntry]; simp; rfl) rfl
      (zeros_length 8)]
    rfl
  have length_field : readLe 2 data (front.length + 0x08) = endLength child :=
    readLe_field (front ++ zeros 8) _ (by rw [← data_eq, writeEndEntry]; simp; rfl)
      (by rw [List.length_append, zeros_length]) (by unfold endLength; split <;> decide)
  have key_field : readLe 2 data (front.length + 0x0A) = 0 :=
    readLe_field (front ++ zeros 8 ++ leBytes 2 (endLength child)) _
      (by rw [← data_eq, writeEndEntry]; simp; rfl)
      (by simp [zeros_length, leBytes_length]) (by decide)
  have flag_field : readLe 2 data (front.length + 0x0C) = endFlags child :=
    readLe_field (front ++ zeros 8 ++ leBytes 2 (endLength child) ++ leBytes 2 0) _
      (by rw [← data_eq, writeEndEntry]; simp; rfl)
      (by simp [zeros_length, leBytes_length])
      (by unfold endFlags; split <;> decide)
  have child_read : (if child.isSome = true then
      some (readLe 8 data (front.length + endLength child - 8)) else none) = child := by
    refine child_field (front ++ zeros 8 ++ leBytes 2 (endLength child) ++ leBytes 2 0 ++
      leBytes 2 (endFlags child) ++ zeros 2) rest small
      (by rw [← data_eq, writeEndEntry]; simp) fun some_child => ?_
    rw [if_pos some_child] at whole
    simp only [List.length_append, zeros_length, leBytes_length]
    omega
  have long : 0x10 ≤ endLength child ∧ (child.isSome = true → 0x18 ≤ endLength child) := by
    rw [whole]
    split <;> simp_all
  unfold entryAt
  dsimp only
  rw [reference_field, length_field, key_field, flag_field, if_neg (by omega), if_neg (by omega),
    if_neg (by omega), if_neg]
  · simp [endFlags_node, child_read, readBackEnd, slice]
  · rw [endFlags_node]
    rintro ⟨some_child, low⟩
    have := long.2 some_child
    omega

theorem entriesFrom_written {entries : List PendingEntry} (front : Bytes)
    (writable : ∀ pending ∈ entries, Writable pending) (small : ∀ vcn ∈ child, vcn < 2 ^ 64) :
    entriesFrom (front ++ (entries.flatMap writeEntry ++ writeEndEntry child)) front.length =
      entries.map readBack ++ [readBackEnd child] := by
  induction entries generalizing front with
  | nil =>
    rw [List.flatMap_nil, List.nil_append, List.map_nil, List.nil_append]
    have found := entryAt_writeEndEntry front [] small
    rw [List.append_nil] at found
    exact entriesFrom_end found readBackEnd_isEnd
  | cons pending rest induction =>
    rw [List.forall_mem_cons] at writable
    rw [List.flatMap_cons, List.append_assoc,
      entriesFrom_next (entryAt_writeEntry front _ writable.1) readBack_isEnd, List.map_cons,
      List.cons_append]
    congr 1
    have next := induction (front ++ writeEntry pending) writable.2
    rw [List.length_append, writeEntry_length writable.1.reference, List.append_assoc] at next
    exact next

end ReadBack

end R4OS.NtfsBuilder
