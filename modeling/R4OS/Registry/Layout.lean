import R4OS.Registry.Validation

/-!
# The layout of a hive

The bytes of a hive that is given by its records and heaps, laid out one behind the other, and what
the readers and the parser find in them.
-/

namespace R4OS.Registry

open Text

/-- What `writeU16` writes. -/
def u16Bytes (value : Nat) : Bytes := [UInt8.ofNat value, UInt8.ofNat (value >>> 8)]

/-- What `writeU32` writes. -/
def u32Bytes (value : Nat) : Bytes :=
  [UInt8.ofNat value, UInt8.ofNat (value >>> 8), UInt8.ofNat (value >>> 16),
    UInt8.ofNat (value >>> 24)]

/-- What `writeU64` writes. -/
def u64Bytes (value : Nat) : Bytes := u32Bytes value ++ u32Bytes (value >>> 32)

@[simp] theorem u16Bytes_length (value : Nat) : (u16Bytes value).length = 2 := rfl

@[simp] theorem u32Bytes_length (value : Nat) : (u32Bytes value).length = 4 := rfl

@[simp] theorem u64Bytes_length (value : Nat) : (u64Bytes value).length = 8 := rfl

section Reading

variable {front rest : Bytes} {value offset : Nat}

variable (field : Nat)

theorem byteAt_append_right (front rest : Bytes) (offset : Nat) :
    byteAt (front ++ rest) (front.length + offset) = byteAt rest offset := by
  simp [byteAt, List.getD_eq_getElem?_getD, List.getElem?_append_right]

theorem byteAt_append_left (inside : offset < front.length) :
    byteAt (front ++ rest) offset = byteAt front offset := by
  simp [byteAt, List.getD_eq_getElem?_getD, List.getElem?_append_left inside]

variable (bytes : Bytes) (start : Nat)

theorem byteAt_drop (offset : Nat) :
    byteAt (bytes.drop start) offset = byteAt bytes (start + offset) := by
  simp [byteAt, List.getD_eq_getElem?_getD]

theorem readU16_drop (offset : Nat) :
    readU16 (bytes.drop start) offset = readU16 bytes (start + offset) := by
  simp only [readU16, byteAt_drop, Nat.add_assoc]

theorem readU32_drop (offset : Nat) :
    readU32 (bytes.drop start) offset = readU32 bytes (start + offset) := by
  simp only [readU32, readU16_drop, Nat.add_assoc]

theorem readU64_drop (offset : Nat) :
    readU64 (bytes.drop start) offset = readU64 bytes (start + offset) := by
  simp only [readU64, readU32_drop, Nat.add_assoc]

theorem readU16_append_right (front rest : Bytes) (offset : Nat) :
    readU16 (front ++ rest) (front.length + offset) = readU16 rest offset := by
  simp only [readU16, Nat.add_assoc, byteAt_append_right]

theorem readU32_append_right (front rest : Bytes) (offset : Nat) :
    readU32 (front ++ rest) (front.length + offset) = readU32 rest offset := by
  simp only [readU32, Nat.add_assoc, readU16_append_right]

theorem readU64_append_right (front rest : Bytes) (offset : Nat) :
    readU64 (front ++ rest) (front.length + offset) = readU64 rest offset := by
  simp only [readU64, Nat.add_assoc, readU32_append_right]

theorem readU16_u32_append (rest : Bytes) (offset : Nat) :
    readU16 (u32Bytes field ++ rest) (offset + 4) = readU16 rest offset := by
  rw [Nat.add_comm]
  exact readU16_append_right (u32Bytes field) rest offset

theorem readU16_u16_append (rest : Bytes) (offset : Nat) :
    readU16 (u16Bytes field ++ rest) (offset + 2) = readU16 rest offset := by
  rw [Nat.add_comm]
  exact readU16_append_right (u16Bytes field) rest offset

theorem readU32_u32_append (rest : Bytes) (offset : Nat) :
    readU32 (u32Bytes field ++ rest) (offset + 4) = readU32 rest offset := by
  rw [Nat.add_comm]
  exact readU32_append_right (u32Bytes field) rest offset

theorem readU32_u16_append (rest : Bytes) (offset : Nat) :
    readU32 (u16Bytes field ++ rest) (offset + 2) = readU32 rest offset := by
  rw [Nat.add_comm]
  exact readU32_append_right (u16Bytes field) rest offset

theorem readU32_u64_append (rest : Bytes) (offset : Nat) :
    readU32 (u64Bytes field ++ rest) (offset + 8) = readU32 rest offset := by
  rw [Nat.add_comm]
  exact readU32_append_right (u64Bytes field) rest offset

theorem readU64_u64_append (rest : Bytes) (offset : Nat) :
    readU64 (u64Bytes field ++ rest) (offset + 8) = readU64 rest offset := by
  rw [Nat.add_comm]
  exact readU64_append_right (u64Bytes field) rest offset

theorem readU64_u32_append (rest : Bytes) (offset : Nat) :
    readU64 (u32Bytes field ++ rest) (offset + 4) = readU64 rest offset := by
  rw [Nat.add_comm]
  exact readU64_append_right (u32Bytes field) rest offset

theorem readU64_u16_append (rest : Bytes) (offset : Nat) :
    readU64 (u16Bytes field ++ rest) (offset + 2) = readU64 rest offset := by
  rw [Nat.add_comm]
  exact readU64_append_right (u16Bytes field) rest offset

theorem readU16_magic_append (rest : Bytes) (offset : Nat) :
    readU16 (magic ++ rest) (offset + 4) = readU16 rest offset := by
  rw [Nat.add_comm]
  exact readU16_append_right magic rest offset

theorem readU32_magic_append (rest : Bytes) (offset : Nat) :
    readU32 (magic ++ rest) (offset + 4) = readU32 rest offset := by
  rw [Nat.add_comm]
  exact readU32_append_right magic rest offset

theorem readU64_magic_append (rest : Bytes) (offset : Nat) :
    readU64 (magic ++ rest) (offset + 4) = readU64 rest offset := by
  rw [Nat.add_comm]
  exact readU64_append_right magic rest offset

theorem readU16_u16Bytes (bound : value < 2 ^ 16) (rest : Bytes) :
    readU16 (u16Bytes value ++ rest) 0 = value := by
  simp only [readU16, byteAt, u16Bytes, List.cons_append, List.nil_append, List.getD_cons_zero,
    List.getD_cons_succ, Nat.zero_add, UInt8.toNat_ofNat', Nat.shiftRight_eq_div_pow]
  omega

theorem readU32_u32Bytes (bound : value < 2 ^ 32) (rest : Bytes) :
    readU32 (u32Bytes value ++ rest) 0 = value := by
  simp only [readU32, readU16, byteAt, u32Bytes, List.cons_append, List.nil_append,
    List.getD_cons_zero, List.getD_cons_succ, Nat.zero_add, Nat.reduceAdd, UInt8.toNat_ofNat',
    Nat.shiftRight_eq_div_pow]
  omega

theorem readU64_u64Bytes (bound : value < 2 ^ 64) (rest : Bytes) :
    readU64 (u64Bytes value ++ rest) 0 = value := by
  simp only [readU64, readU32, readU16, byteAt, u64Bytes, u32Bytes, List.cons_append,
    List.nil_append, List.getD_cons_zero, List.getD_cons_succ, Nat.zero_add, Nat.reduceAdd,
    UInt8.toNat_ofNat', Nat.shiftRight_eq_div_pow]
  omega

end Reading

/-- What `writeKeyRecord` writes into zeroed memory. -/
def keyRecordBytes (key : KeyRecord) : Bytes :=
  u32Bytes key.parent_index ++ (u32Bytes key.name_offset ++ (u16Bytes key.name_len ++
    (u16Bytes 0 ++ (u32Bytes key.first_value_index ++ (u32Bytes key.value_count ++
      (u32Bytes key.first_child_index ++ (u32Bytes key.child_count ++ u32Bytes 0)))))))

/-- What `writeValueRecord` writes into zeroed memory. -/
def valueRecordBytes (value : ValueRecord) : Bytes :=
  u32Bytes value.owner_key_index ++ (u32Bytes value.name_offset ++ (u16Bytes value.name_len ++
    (u16Bytes value.value_type.toInt ++ (u32Bytes 0 ++ (u32Bytes value.data_offset ++
      (u32Bytes value.data_len ++ (u32Bytes 0 ++ u32Bytes 0)))))))

/-- The fields of a key record are in range. -/
structure KeyRecord.Fits (key : KeyRecord) : Prop where
  parent_index : key.parent_index < 2 ^ 32
  name_offset : key.name_offset < 2 ^ 32
  name_len : key.name_len < 2 ^ 16
  first_value_index : key.first_value_index < 2 ^ 32
  value_count : key.value_count < 2 ^ 32
  first_child_index : key.first_child_index < 2 ^ 32
  child_count : key.child_count < 2 ^ 32

/-- The fields of a value record are in range. -/
structure ValueRecord.Fits (value : ValueRecord) : Prop where
  owner_key_index : value.owner_key_index < 2 ^ 32
  name_offset : value.name_offset < 2 ^ 32
  name_len : value.name_len < 2 ^ 16
  data_offset : value.data_offset < 2 ^ 32
  data_len : value.data_len < 2 ^ 32

@[simp] theorem keyRecordBytes_length (key : KeyRecord) : (keyRecordBytes key).length = 32 := rfl

@[simp] theorem valueRecordBytes_length (value : ValueRecord) :
    (valueRecordBytes value).length = 32 := rfl

section Records

variable {rest : Bytes}

theorem readKeyRecord_keyRecordBytes {key : KeyRecord} (fits : key.Fits) :
    readKeyRecord (keyRecordBytes key ++ rest) 0 = key := by
  simp [readKeyRecord, keyRecordBytes, readU32_u32_append, readU32_u16_append, readU16_u32_append, readU32_u32Bytes fits.parent_index, readU32_u32Bytes fits.name_offset, readU16_u16Bytes fits.name_len, readU32_u32Bytes fits.first_value_index, readU32_u32Bytes fits.value_count, readU32_u32Bytes fits.first_child_index, readU32_u32Bytes fits.child_count]

theorem readKeyRecord_drop (table : Bytes) (index : Nat) :
    readKeyRecord (table.drop (index * key_record_size)) 0 = readKeyRecord table index := by
  simp [readKeyRecord, readU32_drop, readU16_drop]

variable (rest) in
theorem keyReserved_keyRecordBytes (key : KeyRecord) :
    readU16 (keyRecordBytes key ++ rest) 10 = 0 ∧ readU32 (keyRecordBytes key ++ rest) 28 = 0 := by
  constructor
  · simp [keyRecordBytes, readU16_u32_append, readU16_u16_append, readU16_u16Bytes (Nat.two_pow_pos 16)]
  · simp [keyRecordBytes, readU32_u32_append, readU32_u16_append, readU32_u32Bytes (Nat.two_pow_pos 32)]

theorem valueType_lt (type : ValueType) : type.toInt < 2 ^ 16 := by
  cases type <;> decide

theorem readValueRecord_valueRecordBytes {value : ValueRecord} (fits : value.Fits) :
    readValueRecord (valueRecordBytes value ++ rest) 0 = value := by
  simp [readValueRecord, valueRecordBytes, readU32_u32_append, readU32_u16_append, readU16_u32_append, readU16_u16_append, readU32_u32Bytes fits.owner_key_index, readU32_u32Bytes fits.name_offset, readU16_u16Bytes fits.name_len, readU16_u16Bytes (valueType_lt value.value_type), readU32_u32Bytes fits.data_offset, readU32_u32Bytes fits.data_len, ValueType.fromInt_toInt]

theorem readValueRecord_drop (table : Bytes) (index : Nat) :
    readValueRecord (table.drop (index * value_record_size)) 0 = readValueRecord table index := by
  simp [readValueRecord, readU32_drop, readU16_drop]

variable (rest) in
theorem valueReserved_valueRecordBytes (value : ValueRecord) :
    readU16 (valueRecordBytes value ++ rest) 10 = value.value_type.toInt ∧
      readU32 (valueRecordBytes value ++ rest) 12 = 0 ∧
      readU64 (valueRecordBytes value ++ rest) 24 = 0 := by
  refine ⟨?_, ?_, ?_⟩
  · simp [valueRecordBytes, readU16_u32_append, readU16_u16_append, readU16_u16Bytes (valueType_lt value.value_type)]
  · simp [valueRecordBytes, readU32_u32_append, readU32_u16_append, readU32_u32Bytes (Nat.two_pow_pos 32)]
  · simp [valueRecordBytes, readU64, readU32_u32_append, readU32_u16_append, readU32_u32Bytes (Nat.two_pow_pos 32)]

theorem drop_flatMap {Record : Type} {encode : Record → Bytes} {size : Nat}
    (length : ∀ record, (encode record).length = size) {records : List Record} {index : Nat}
    (inside : index < records.length) :
    (records.flatMap encode).drop (index * size) =
      encode records[index] ++ (records.drop (index + 1)).flatMap encode := by
  induction records generalizing index with
  | nil => cases inside
  | cons record records induction =>
    cases index with
    | zero => simp
    | succ index =>
      have later : index < records.length := by simpa using inside
      have skipped : (index + 1) * size = (encode record).length + index * size := by
        rw [length, Nat.add_mul, Nat.one_mul, Nat.add_comm]
      rw [List.flatMap_cons, skipped, List.drop_length_add_append, induction later]
      rfl

theorem length_flatMap_size {Record : Type} {encode : Record → Bytes} {size : Nat}
    (length : ∀ record, (encode record).length = size) (records : List Record) :
    (records.flatMap encode).length = records.length * size := by
  induction records with
  | nil => simp
  | cons record records induction =>
    rw [List.flatMap_cons, List.length_append, length, induction, List.length_cons, Nat.add_mul,
      Nat.one_mul, Nat.add_comm]

end Records

/-- A hive by its parts. -/
structure Layout where
  kind : HiveKind
  generation : Nat
  keys : List KeyRecord
  values : List ValueRecord
  strings : Bytes
  data : Bytes

namespace Layout

variable (layout : Layout)

def keyTable : Bytes := layout.keys.flatMap keyRecordBytes

def valueTable : Bytes := layout.values.flatMap valueRecordBytes

def value_table_offset : Nat := header_size + layout.keys.length * key_record_size

def string_heap_offset : Nat :=
  layout.value_table_offset + layout.values.length * value_record_size

def data_heap_offset : Nat := layout.string_heap_offset + layout.strings.length

def file_size : Nat := layout.data_heap_offset + layout.data.length

/-- The header.  Tables and heaps without content have the offset zero. -/
def header : Header where
  hive_kind := layout.kind
  generation := layout.generation
  key_table_offset := header_size
  key_count := layout.keys.length
  value_table_offset := if layout.values.length = 0 then 0 else layout.value_table_offset
  value_count := layout.values.length
  string_heap_offset := if layout.strings.length = 0 then 0 else layout.string_heap_offset
  string_heap_size := layout.strings.length
  data_heap_offset := if layout.data.length = 0 then 0 else layout.data_heap_offset
  data_heap_size := layout.data.length
  checksum_type := 0
  checksum := 0

/-- The header up to its last field that is used. -/
def headerFields : Bytes :=
  magic ++ (u16Bytes 1 ++ (u16Bytes header_size ++ (u16Bytes 1 ++ (u16Bytes layout.kind.toInt ++
    (u32Bytes 0 ++ (u64Bytes layout.file_size ++ (u64Bytes layout.generation ++
      (u32Bytes layout.header.key_table_offset ++ (u32Bytes layout.header.key_count ++
        (u32Bytes layout.header.value_table_offset ++ (u32Bytes layout.header.value_count ++
          (u32Bytes layout.header.string_heap_offset ++
            (u32Bytes layout.header.string_heap_size ++
              (u32Bytes layout.header.data_heap_offset ++
                u32Bytes layout.header.data_heap_size))))))))))))))

def headerBytes : Bytes := layout.headerFields ++ List.replicate 32 0

/-- The header, both tables and both heaps one behind the other. -/
def bytes : Bytes :=
  layout.headerBytes ++ (layout.keyTable ++ (layout.valueTable ++ (layout.strings ++ layout.data)))

/-- What the parser makes of a layout. -/
def view : HiveView where
  bytes := layout.bytes
  header := layout.header
  key_table := layout.keyTable
  value_table := layout.valueTable
  string_heap := layout.strings
  data_heap := layout.data

/-- All fields are in range. -/
structure Fits : Prop where
  keys : ∀ key ∈ layout.keys, key.Fits
  values : ∀ value ∈ layout.values, value.Fits
  nonempty : layout.keys ≠ []
  generation : layout.generation < 2 ^ 64
  file_size : layout.file_size < 2 ^ 32

@[simp] theorem headerBytes_length : layout.headerBytes.length = header_size := rfl

@[simp] theorem keyTable_length :
    layout.keyTable.length = layout.keys.length * key_record_size :=
  length_flatMap_size keyRecordBytes_length _

@[simp] theorem valueTable_length :
    layout.valueTable.length = layout.values.length * value_record_size :=
  length_flatMap_size valueRecordBytes_length _

theorem bytes_length : layout.bytes.length = layout.file_size := by
  simp only [bytes, List.length_append, headerBytes_length, keyTable_length, valueTable_length,
    file_size, data_heap_offset, string_heap_offset, value_table_offset]
  omega

section Parse

variable {layout}

theorem HiveKind.toInt_lt (kind : HiveKind) : kind.toInt < 2 ^ 16 := by
  cases kind <;> decide

theorem header_fits (fits : layout.Fits) :
    layout.header.key_table_offset < 2 ^ 32 ∧ layout.header.key_count < 2 ^ 32 ∧
      layout.header.value_table_offset < 2 ^ 32 ∧ layout.header.value_count < 2 ^ 32 ∧
      layout.header.string_heap_offset < 2 ^ 32 ∧ layout.header.string_heap_size < 2 ^ 32 ∧
      layout.header.data_heap_offset < 2 ^ 32 ∧ layout.header.data_heap_size < 2 ^ 32 := by
  have size := fits.file_size
  simp only [file_size, data_heap_offset, string_heap_offset, value_table_offset, header_size,
    key_record_size, value_record_size] at size
  simp only [header, data_heap_offset, string_heap_offset, value_table_offset, header_size,
    key_record_size, value_record_size]
  refine ⟨?_, ?_, ?_, ?_, ?_, ?_, ?_, ?_⟩
  all_goals first | omega | split <;> omega

theorem readU32_zeros (rest : Bytes) {offset : Nat} (inside : offset + 4 ≤ 32) :
    readU32 (List.replicate 32 0 ++ rest) offset = 0 := by
  have zero (position : Nat) (before : position < 32) :
      byteAt (List.replicate 32 0 ++ rest) position = 0 := by
    rw [byteAt_append_left (by simpa using before), byteAt, List.getD_replicate]
    · rfl
    · exact before
  simp only [readU32, readU16, zero offset (by omega), zero (offset + 1) (by omega),
    zero (offset + 2) (by omega), zero (offset + 2 + 1) (by omega), Nat.zero_mul,
    Nat.add_zero]

theorem readHeader_bytes (fits : layout.Fits) :
    readHeader layout.bytes layout.kind = layout.header := by
  obtain ⟨key_table_offset, key_count, value_table_offset, value_count, string_heap_offset,
    string_heap_size, data_heap_offset, data_heap_size⟩ := header_fits fits
  simp only [readHeader, bytes, headerBytes, headerFields, List.append_assoc, readU32_magic_append,
    readU64_magic_append, readU64_u16_append, readU64_u32_append, readU64_u64_append,
    readU32_u16_append, readU32_u32_append, readU32_u64_append,
    readU64_u64Bytes fits.generation, readU32_u32Bytes key_table_offset,
    readU32_u32Bytes key_count, readU32_u32Bytes value_table_offset,
    readU32_u32Bytes value_count, readU32_u32Bytes string_heap_offset,
    readU32_u32Bytes string_heap_size, readU32_u32Bytes data_heap_offset,
    readU32_u32Bytes data_heap_size, readU32_zeros _ (show 8 + 4 ≤ 32 by decide),
    readU32_zeros _ (show 12 + 4 ≤ 32 by decide)]
  rfl

theorem parseHeader_bytes (fits : layout.Fits) : parseHeader layout.bytes = .ok layout.header := by
  have size : layout.file_size < 2 ^ 64 := lt_trans fits.file_size (by decide)
  have long : ¬ layout.bytes.length < header_size := by
    rw [bytes_length]
    simp only [file_size, data_heap_offset, string_heap_offset, value_table_offset]
    omega
  have small : (1 : Nat) < 2 ^ 16 := by decide
  have width : header_size < 2 ^ 16 := by decide
  have magic_eq : layout.bytes.take 4 = magic := rfl
  have version : readU16 layout.bytes 4 = 1 := by
    simp only [bytes, headerBytes, headerFields, List.append_assoc, readU16_magic_append,
      readU16_u16Bytes small]
  have header_eq : readU16 layout.bytes 6 = header_size := by
    simp only [bytes, headerBytes, headerFields, List.append_assoc, readU16_magic_append, readU16_u16_append,
      readU16_u16Bytes width]
  have endian : readU16 layout.bytes 8 = 1 := by
    simp only [bytes, headerBytes, headerFields, List.append_assoc, readU16_magic_append, readU16_u16_append,
      readU16_u16Bytes small]
  have kind : readU16 layout.bytes 10 = layout.kind.toInt := by
    simp only [bytes, headerBytes, headerFields, List.append_assoc, readU16_magic_append, readU16_u16_append,
      readU16_u16Bytes (HiveKind.toInt_lt layout.kind)]
  have flags : readU32 layout.bytes 12 = 0 := by
    simp only [bytes, headerBytes, headerFields, List.append_assoc, readU32_magic_append, readU32_u16_append,
      readU32_u32Bytes (Nat.two_pow_pos 32)]
  have file : readU64 layout.bytes 16 = layout.bytes.length := by
    rw [bytes_length]
    simp only [bytes, headerBytes, headerFields, List.append_assoc, readU64_magic_append,
      readU64_u16_append, readU64_u32_append, readU64_u64Bytes size]
  have fields := readHeader_bytes fits
  have zeros : readU32 layout.bytes 64 = 0 ∧ readU32 layout.bytes 68 = 0 := by
    simp only [bytes, headerBytes, headerFields, List.append_assoc, readU32_magic_append,
      readU32_u16_append, readU32_u32_append, readU32_u64_append,
      readU32_zeros _ (show 0 + 4 ≤ 32 by decide),
      readU32_zeros _ (show 4 + 4 ≤ 32 by decide), and_self]
  have checksum_type : readU32 layout.bytes 72 = 0 := by
    simp only [bytes, headerBytes, headerFields, List.append_assoc, readU32_magic_append,
      readU32_u16_append, readU32_u32_append, readU32_u64_append,
      readU32_zeros _ (show 8 + 4 ≤ 32 by decide)]
  have reserved : (layout.bytes.drop 80).take 16 = List.replicate 16 0 := by
    have fields_length : layout.headerFields.length = 64 := rfl
    have position : 80 = layout.headerFields.length + 16 := by rw [fields_length]
    rw [bytes, headerBytes, List.append_assoc, position, List.drop_length_add_append,
      List.drop_append_of_le_length (by simp), List.drop_replicate,
      List.take_append_of_le_length (by simp), List.take_replicate]
    rfl
  have passed {condition : Prop} [Decidable condition] {error : Error} {Next : Type}
      {rest : Unit → Except Error Next} (holds : ¬ condition) :
      (reject condition error >>= rest) = rest () := by
    rw [reject, if_neg holds]
    rfl
  unfold parseHeader
  rw [passed long, passed (by simp [magic_eq]), passed (by simp [version]),
    passed (by simp [header_eq]), passed (by simp [endian]), kind, HiveKind.fromInt_toInt]
  dsimp only
  rw [passed (by simp [flags]), passed (by simp [file]), passed (by simp [zeros]),
    passed (by simp [checksum_type]), passed (by simp [reserved]), passed (by simp [checksum_type]),
    fields]
  rfl

/-! ### Tables and heaps -/

theorem byteRange_slice {front slice rest : Bytes} (nonempty : slice.length ≠ 0) :
    byteRange (front ++ (slice ++ rest)) front.length slice.length = .ok slice := by
  rw [byteRange_eq_ok]
  refine ⟨fun empty => absurd empty nonempty, fun _ => by simp, ?_⟩
  simp [sliceFromHeap, nonempty]

theorem byteRange_heap (front slice rest : Bytes) :
    byteRange (front ++ (slice ++ rest)) (if slice.length = 0 then 0 else front.length)
      slice.length = .ok slice := by
  split
  · next empty =>
      rw [byteRange_eq_ok]
      simp [sliceFromHeap, List.length_eq_zero_iff.mp empty]
  · next nonempty => exact byteRange_slice nonempty

theorem tableRange_slice (front rest : Bytes) {slice : Bytes} {count size : Nat}
    (length : slice.length = count * size) (pos : 0 < size) (small : count * size < 2 ^ 32) :
    tableRange (front ++ (slice ++ rest)) (if count = 0 then 0 else front.length) count size =
      .ok slice := by
  unfold tableRange
  split
  · next empty =>
      have nothing : slice = [] := List.length_eq_zero_iff.mp (by rw [length, empty, Nat.zero_mul])
      simp [nothing]
  · next nonempty =>
      have some : slice.length ≠ 0 := by
        rw [length]
        exact Nat.mul_ne_zero nonempty (Nat.ne_of_gt pos)
      rw [if_neg (by omega), ← length]
      exact byteRange_slice some

theorem parseHive_bytes (fits : layout.Fits) (valid : Valid layout.view) :
    parseHive layout.bytes = .ok layout.view := by
  have size := fits.file_size
  simp only [file_size, data_heap_offset, string_heap_offset, value_table_offset, header_size,
    key_record_size, value_record_size] at size
  have keys_ne : layout.keys.length ≠ 0 := by simpa using fits.nonempty
  have key_table : tableRange layout.bytes layout.header.key_table_offset layout.header.key_count
      key_record_size = .ok layout.keyTable := by
    have range := tableRange_slice layout.headerBytes
      (layout.valueTable ++ (layout.strings ++ layout.data)) layout.keyTable_length
      (by decide) (by simp only [key_record_size]; omega)
    rw [if_neg keys_ne] at range
    exact range
  have value_table : tableRange layout.bytes layout.header.value_table_offset
      layout.header.value_count value_record_size = .ok layout.valueTable := by
    have range := tableRange_slice (layout.headerBytes ++ layout.keyTable)
      (layout.strings ++ layout.data) layout.valueTable_length (by decide)
      (by simp only [value_record_size]; omega)
    rw [List.length_append, headerBytes_length, keyTable_length, List.append_assoc] at range
    exact range
  have string_heap : byteRange layout.bytes layout.header.string_heap_offset
      layout.header.string_heap_size = .ok layout.strings := by
    have range := byteRange_heap (layout.headerBytes ++ (layout.keyTable ++ layout.valueTable))
      layout.strings layout.data
    simp only [List.length_append, headerBytes_length, keyTable_length, valueTable_length,
      List.append_assoc, ← Nat.add_assoc] at range
    exact range
  have data_heap : byteRange layout.bytes layout.header.data_heap_offset
      layout.header.data_heap_size = .ok layout.data := by
    have range := byteRange_heap
      (layout.headerBytes ++ (layout.keyTable ++ (layout.valueTable ++ layout.strings)))
      layout.data []
    simp only [List.length_append, headerBytes_length, keyTable_length, valueTable_length,
      List.append_assoc, List.append_nil, ← Nat.add_assoc] at range
    exact range
  unfold parseHive
  refine bind_eq_ok.mpr ⟨layout.header, parseHeader_bytes fits, ?_⟩
  refine unit_bind_eq_ok.mpr ⟨reject_eq_ok.mpr keys_ne, ?_⟩
  refine bind_eq_ok.mpr ⟨_, key_table, bind_eq_ok.mpr ⟨_, value_table, ?_⟩⟩
  refine bind_eq_ok.mpr ⟨_, string_heap, bind_eq_ok.mpr ⟨_, data_heap, ?_⟩⟩
  exact unit_bind_eq_ok.mpr ⟨validate_eq_ok.mpr valid, rfl⟩

/-! ### Records -/

theorem keyAt_view (fits : layout.Fits) {index : Nat} (inside : index < layout.keys.length) :
    layout.view.keyAt index = layout.keys[index] := by
  unfold HiveView.keyAt
  rw [← readKeyRecord_drop]
  change readKeyRecord (layout.keyTable.drop (index * 32)) 0 = _
  rw [keyTable, drop_flatMap keyRecordBytes_length inside]
  exact readKeyRecord_keyRecordBytes (fits.keys _ (List.getElem_mem inside))

theorem keyReserved_view {index : Nat} (inside : index < layout.keys.length) :
    validateKeyReserved layout.view index = .ok () := by
  have dropped := drop_flatMap keyRecordBytes_length inside
  obtain ⟨short, long⟩ := keyReserved_keyRecordBytes
    ((layout.keys.drop (index + 1)).flatMap keyRecordBytes) layout.keys[index]
  rw [← dropped] at short long
  rw [readU16_drop] at short
  rw [readU32_drop] at long
  exact unit_bind_eq_ok.mpr ⟨reject_eq_ok.mpr (not_not.mpr short),
    reject_eq_ok.mpr (not_not.mpr long)⟩

theorem valueAt_view (fits : layout.Fits) {index : Nat} (inside : index < layout.values.length) :
    layout.view.valueAt index = layout.values[index] := by
  unfold HiveView.valueAt
  rw [← readValueRecord_drop]
  change readValueRecord (layout.valueTable.drop (index * 32)) 0 = _
  rw [valueTable, drop_flatMap valueRecordBytes_length inside]
  exact readValueRecord_valueRecordBytes (fits.values _ (List.getElem_mem inside))

theorem valueReserved_view {index : Nat} (inside : index < layout.values.length) :
    validateValueReservedAndType layout.view index = .ok () := by
  have dropped := drop_flatMap valueRecordBytes_length inside
  obtain ⟨type, word, long⟩ := valueReserved_valueRecordBytes
    ((layout.values.drop (index + 1)).flatMap valueRecordBytes) layout.values[index]
  rw [← dropped] at type word long
  rw [readU16_drop] at type
  rw [readU32_drop] at word
  rw [readU64_drop] at long
  refine unit_bind_eq_ok.mpr ⟨reject_eq_ok.mpr ?_, unit_bind_eq_ok.mpr
    ⟨reject_eq_ok.mpr (not_not.mpr word), reject_eq_ok.mpr (not_not.mpr long)⟩⟩
  change ¬ (ValueType.fromInt (readU16 layout.valueTable (index * 32 + 10))).isNone = true
  rw [valueTable, type, ValueType.fromInt_toInt]
  simp

end Parse

end Layout

end R4OS.Registry
