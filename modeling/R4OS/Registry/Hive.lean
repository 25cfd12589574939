import R4OS.Hashing.LinearProbing
import R4OS.Path.FilePath
import R4OS.Text.Keyed

/-!
# Registry hives

A hive is a header, a table of keys, a table of values, and two heaps for names and data.  Keys and
values are records of fixed size that refer to each other and to the heaps by index and offset.  The
parser accepts a byte string after local checks of every record.
-/

namespace R4OS.Registry

open Hashing Text
open R4OS.Path (isSeparator)

def magic : Bytes := ascii "R4R1"

/-- Bytes of the header. -/
def header_size : Nat := 96

def key_record_size : Nat := 32

def value_record_size : Nat := 32

/-- The index that refers to nothing. -/
def invalid_index : Nat := 0xffffffff

/-- The four hives. -/
inductive HiveKind
  | system
  | software
  | desktop
  | user
  deriving DecidableEq

namespace HiveKind

def toInt : HiveKind → Nat
  | system => 1
  | software => 2
  | desktop => 3
  | user => 4

def fromInt (value : Nat) : Option HiveKind :=
  if value = 1 then some system
  else if value = 2 then some software
  else if value = 3 then some desktop
  else if value = 4 then some user
  else none

/-- The first component of the paths of a hive. -/
def shortRoot : HiveKind → Bytes
  | system => ascii "SYSTEM"
  | software => ascii "SOFTWARE"
  | desktop => ascii "DESKTOP"
  | user => ascii "USER"

@[simp] theorem fromInt_toInt (kind : HiveKind) : fromInt kind.toInt = some kind := by
  cases kind <;> rfl

end HiveKind

/-- The types of values. -/
inductive ValueType
  | string
  | u32
  | u64
  | bool
  | binary
  | multi_string
  deriving DecidableEq, Inhabited

namespace ValueType

def toInt : ValueType → Nat
  | string => 1
  | u32 => 2
  | u64 => 3
  | bool => 4
  | binary => 5
  | multi_string => 6

def fromInt (value : Nat) : Option ValueType :=
  if value = 1 then some string
  else if value = 2 then some u32
  else if value = 3 then some u64
  else if value = 4 then some bool
  else if value = 5 then some binary
  else if value = 6 then some multi_string
  else none

@[simp] theorem fromInt_toInt (type : ValueType) : fromInt type.toInt = some type := by
  cases type <;> rfl

end ValueType

/-- Why a hive, a path or a value is refused. -/
inductive Error
  | FileTooSmall
  | BadMagic
  | BadVersion
  | BadHeaderSize
  | BadEndian
  | BadHiveKind
  | BadFlags
  | BadFileSize
  | BadChecksumType
  | BadChecksum
  | BadReserved
  | BadRange
  | BadRootKey
  | BadKey
  | BadValue
  | BadName
  | BadData
  | DuplicateKey
  | DuplicateValue
  | RootMismatch
  | InvalidPath
  | OutOfMemory
  | TooManyEntries
  | InvalidText
  deriving DecidableEq

structure Header where
  hive_kind : HiveKind
  generation : Nat
  key_table_offset : Nat
  key_count : Nat
  value_table_offset : Nat
  value_count : Nat
  string_heap_offset : Nat
  string_heap_size : Nat
  data_heap_offset : Nat
  data_heap_size : Nat
  checksum_type : Nat
  checksum : Nat
  deriving DecidableEq

structure KeyRecord where
  parent_index : Nat
  name_offset : Nat
  name_len : Nat
  first_value_index : Nat
  value_count : Nat
  first_child_index : Nat
  child_count : Nat

structure ValueRecord where
  owner_key_index : Nat
  name_offset : Nat
  name_len : Nat
  value_type : ValueType
  data_offset : Nat
  data_len : Nat

/-- A typed value. -/
structure Value where
  value_type : ValueType
  data : Bytes

/-- A hive with its tables and heaps. -/
structure HiveView where
  bytes : Bytes
  header : Header
  key_table : Bytes
  value_table : Bytes
  string_heap : Bytes
  data_heap : Bytes
  deriving DecidableEq

def byteAt (bytes : Bytes) (offset : Nat) : Nat := (bytes.getD offset 0).toNat

def readU16 (bytes : Bytes) (offset : Nat) : Nat :=
  byteAt bytes offset + byteAt bytes (offset + 1) * 2 ^ 8

def readU32 (bytes : Bytes) (offset : Nat) : Nat :=
  readU16 bytes offset + readU16 bytes (offset + 2) * 2 ^ 16

def readU64 (bytes : Bytes) (offset : Nat) : Nat :=
  readU32 bytes offset + readU32 bytes (offset + 4) * 2 ^ 32

def readKeyRecord (table : Bytes) (index : Nat) : KeyRecord :=
  let offset := index * key_record_size
  { parent_index := readU32 table offset
    name_offset := readU32 table (offset + 4)
    name_len := readU16 table (offset + 8)
    first_value_index := readU32 table (offset + 12)
    value_count := readU32 table (offset + 16)
    first_child_index := readU32 table (offset + 20)
    child_count := readU32 table (offset + 24) }

def readValueRecord (table : Bytes) (index : Nat) : ValueRecord :=
  let offset := index * value_record_size
  { owner_key_index := readU32 table offset
    name_offset := readU32 table (offset + 4)
    name_len := readU16 table (offset + 8)
    value_type := (ValueType.fromInt (readU16 table (offset + 10))).getD .binary
    data_offset := readU32 table (offset + 16)
    data_len := readU32 table (offset + 20) }

/-- A part of a heap. -/
def sliceFromHeap (heap : Bytes) (offset len : Nat) : Bytes :=
  if len = 0 then [] else (heap.drop offset).take len

/-- Compare two texts up to ASCII case. -/
def asciiEqlIgnoreCase (a b : Bytes) : Bool := a.map toUpper == b.map toUpper

/-- Names have at most 63 bytes, and no control character, separator or equals sign. -/
def validName (name : Bytes) (allow_empty : Bool) : Bool :=
  if name = [] then allow_empty
  else name.length ≤ 63 && name.all fun ch =>
    !(ch < 0x20 || ch = 0x7f || ch = chr '\\' || ch = chr '/' || ch = chr '=')

def validKeyName (name : Bytes) : Bool := validName name false

def validValueName (name : Bytes) : Bool := validName name true

namespace HiveView

variable (view : HiveView)

def keyAt (index : Nat) : KeyRecord := readKeyRecord view.key_table index

def valueAt (index : Nat) : ValueRecord := readValueRecord view.value_table index

def keyName (key : KeyRecord) : Bytes := sliceFromHeap view.string_heap key.name_offset key.name_len

def valueName (value : ValueRecord) : Bytes :=
  sliceFromHeap view.string_heap value.name_offset value.name_len

def valueData (value : ValueRecord) : Bytes :=
  sliceFromHeap view.data_heap value.data_offset value.data_len

def findChild (parent_index : Nat) (name : Bytes) : Option Nat :=
  if view.header.key_count ≤ parent_index then none
  else
    let parent := view.keyAt parent_index
    if parent.child_count = 0 ∨ parent.first_child_index = invalid_index then none
    else (List.range' parent.first_child_index parent.child_count).find? fun index =>
      decide ((view.keyAt index).parent_index = parent_index) &&
        asciiEqlIgnoreCase (view.keyName (view.keyAt index)) name

def findValue (key_index : Nat) (name : Bytes) : Option Nat :=
  if view.header.key_count ≤ key_index then none
  else
    let key := view.keyAt key_index
    if key.value_count = 0 ∨ key.first_value_index = invalid_index then none
    else (List.range' key.first_value_index key.value_count).find? fun index =>
      decide ((view.valueAt index).owner_key_index = key_index) &&
        asciiEqlIgnoreCase (view.valueName (view.valueAt index)) name

end HiveView

/-- Remove blanks at both ends. -/
def trimPath (path : Bytes) : Bytes := trim path

/-- Remove separators at both ends. -/
def trimSeparators (path : Bytes) : Bytes := (path.dropWhile isSeparator).rdropWhile isSeparator

/-- What lies before the first separator, and what lies behind it. -/
def splitRoot (path : Bytes) : Bytes × Bytes :=
  let component := path.takeWhile fun ch => !isSeparator ch
  (component, path.drop (component.length + 1))

def nextComponent (rest : Bytes) : Option (Bytes × Bytes) :=
  let rest := trimSeparators rest
  if rest = [] then none else some (splitRoot rest)

/-- The components of a path, as long as the fuel lasts. -/
def componentsFrom : (fuel : Nat) → Bytes → List Bytes
  | 0, _ => []
  | fuel + 1, rest =>
    match nextComponent rest with
    | none => []
    | some (component, rest) => component :: componentsFrom fuel rest

/-- The components of a path.  Each of them takes a byte at least. -/
def pathComponents (rest : Bytes) : List Bytes := componentsFrom rest.length rest

def rootKind (root : Bytes) : Option HiveKind :=
  if asciiEqlIgnoreCase root (ascii "SYSTEM") then some .system
  else if asciiEqlIgnoreCase root (ascii "SOFTWARE") then some .software
  else if asciiEqlIgnoreCase root (ascii "DESKTOP") then some .desktop
  else if asciiEqlIgnoreCase root (ascii "USER") then some .user
  else none

structure ParsedRoot where
  kind : HiveKind
  rest : Bytes
  deriving DecidableEq

/-- The hive of a path and the path inside of it. -/
def parseRoot (path : Bytes) : Option ParsedRoot := do
  let text := trimPath path
  guard (text ≠ [])
  let (root, rest) := splitRoot text
  let kind ← rootKind root
  return { kind, rest := trimSeparators rest }

namespace HiveView

variable (view : HiveView)

def findKey (path : Bytes) : Option Nat := do
  let parsed ← parseRoot path
  guard (parsed.kind = view.header.hive_kind)
  (pathComponents parsed.rest).foldlM view.findChild 0

def getValue (key_path value_name : Bytes) : Option Value := do
  let key_index ← view.findKey key_path
  let value_index ← view.findValue key_index value_name
  let record := view.valueAt value_index
  return { value_type := record.value_type, data := view.valueData record }

end HiveView

/-- The number of slots for a number of items: a power of two, at least twice as many. -/
def bucketCount (count : Nat) : Nat :=
  (List.range 32).foldl (fun capacity _ => if capacity < count * 2 then capacity * 2 else capacity) 2

def nameHash (owner : Nat) (name : Bytes) : UInt32 :=
  let hash := [0, 8, 16, 24].foldl
    (fun hash index => (hash ^^^ UInt32.ofNat (owner >>> index &&& 255)) * 16777619)
    (2166136261 : UInt32)
  name.foldl (fun hash ch => (hash ^^^ (toUpper ch).toUInt32) * 16777619) hash

/-- Whether no item of a range matches an earlier one.  Up to 512 items are hashed. -/
def rangeDistinct (count : Nat) (hash : Nat → UInt32) (same : Nat → Nat → Bool) : Bool :=
  if count ≤ 512 then
    allDistinct (bucketCount count) (fun index => (hash index).toNat) same (List.range count)
  else (List.range count).all fun index => (List.range index).all fun prior => !same prior index

/-- Refuse under a condition. -/
def reject (condition : Prop) [Decidable condition] (error : Error) : Except Error Unit :=
  if condition then .error error else .ok ()

def byteRange (bytes : Bytes) (offset size : Nat) : Except Error Bytes :=
  if size = 0 then
    if offset = 0 then .ok [] else if bytes.length < offset then .error .BadRange else .ok []
  else if bytes.length < offset ∨ bytes.length - offset < size then .error .BadRange
  else .ok ((bytes.drop offset).take size)

def tableRange (bytes : Bytes) (offset count record_size : Nat) : Except Error Bytes :=
  if count = 0 then if offset ≠ 0 then .error .BadRange else .ok []
  else if 0xffffffff < count * record_size then .error .BadRange
  else byteRange bytes offset (count * record_size)

/-- A range of indices lies inside a table. -/
def validateIndexRange (first count total : Nat) : Except Error Unit :=
  if count = 0 then reject (first ≠ invalid_index) .BadRange
  else do
    reject (first = invalid_index ∨ total ≤ first) .BadRange
    reject (total - first < count) .BadRange

def validateNameSlice (heap : Bytes) (offset len : Nat) (allow_empty : Bool) :
    Except Error Unit :=
  if len = 0 then reject (!allow_empty ∧ offset ≠ 0) .BadName
  else do
    let name ← byteRange heap offset len
    if allow_empty then reject (!validValueName name) .BadName
    else reject (!validKeyName name) .BadName

def multiStringEnd (data : Bytes) : (count offset : Nat) → Except Error Nat
  | 0, offset => .ok offset
  | count + 1, offset => do
      reject (data.length < offset + 2) .BadData
      let len := readU16 data offset
      reject (data.length < offset + 2 + len) .BadData
      multiStringEnd data count (offset + 2 + len)

def validateMultiString (data : Bytes) : Except Error Unit := do
  reject (data.length < 4) .BadData
  let offset ← multiStringEnd data (readU32 data 0) 4
  reject (offset ≠ data.length) .BadData

def validateValuePayload (value_type : ValueType) (data : Bytes) : Except Error Unit :=
  match value_type with
  | .string | .binary => .ok ()
  | .u32 => reject (data.length ≠ 4) .BadData
  | .u64 => reject (data.length ≠ 8) .BadData
  | .bool => reject (data ≠ [0] ∧ data ≠ [1]) .BadData
  | .multi_string => validateMultiString data

def indexInRange (first count index : Nat) : Bool :=
  !(count = 0 || first = invalid_index || index < first) && index - first < count

section Validate

variable (view : HiveView)

def validateKeyReserved (key_index : Nat) : Except Error Unit := do
  let offset := key_index * key_record_size
  reject (readU16 view.key_table (offset + 10) ≠ 0) .BadReserved
  reject (readU32 view.key_table (offset + 28) ≠ 0) .BadReserved

def validateValueReservedAndType (value_index : Nat) : Except Error Unit := do
  let offset := value_index * value_record_size
  reject ((ValueType.fromInt (readU16 view.value_table (offset + 10))).isNone) .BadValue
  reject (readU32 view.value_table (offset + 12) ≠ 0) .BadReserved
  reject (readU64 view.value_table (offset + 24) ≠ 0) .BadReserved

def keyListedByParent (key_index parent_index : Nat) : Bool :=
  parent_index < view.header.key_count &&
    indexInRange (view.keyAt parent_index).first_child_index (view.keyAt parent_index).child_count
      key_index

def valueListedByOwner (value_index owner_key_index : Nat) : Bool :=
  owner_key_index < view.header.key_count &&
    indexInRange (view.keyAt owner_key_index).first_value_index
      (view.keyAt owner_key_index).value_count value_index

/-- Every key but the root has a name. -/
def validateChildName (key_index : Nat) : Except Error Unit :=
  let key := view.keyAt key_index
  if key_index ≠ 0 then validateNameSlice view.string_heap key.name_offset key.name_len false
  else .ok ()

/-- The checks of one key. -/
def validateKey (key_index : Nat) : Except Error Unit := do
  validateKeyReserved view key_index
  let key := view.keyAt key_index
  reject (key.parent_index ≠ invalid_index ∧ view.header.key_count ≤ key.parent_index) .BadKey
  reject (key_index ≠ 0 ∧ key.parent_index = invalid_index) .BadKey
  reject (key_index ≠ 0 ∧ !keyListedByParent view key_index key.parent_index) .BadKey
  validateChildName view key_index
  validateIndexRange key.first_child_index key.child_count view.header.key_count
  validateIndexRange key.first_value_index key.value_count view.header.value_count
  (List.range' key.first_child_index key.child_count).forM fun child_index =>
    reject ((view.keyAt child_index).parent_index ≠ key_index) .BadKey
  (List.range' key.first_value_index key.value_count).forM fun value_index =>
    reject ((view.valueAt value_index).owner_key_index ≠ key_index) .BadValue

/-- The checks of one value. -/
def validateValue (value_index : Nat) : Except Error Unit := do
  validateValueReservedAndType view value_index
  let value := view.valueAt value_index
  reject (view.header.key_count ≤ value.owner_key_index) .BadValue
  reject (!valueListedByOwner view value_index value.owner_key_index) .BadValue
  validateNameSlice view.string_heap value.name_offset value.name_len true
  let data ← byteRange view.data_heap value.data_offset value.data_len
  validateValuePayload value.value_type data

/-- The names of a range of records are distinct. -/
def validateNameRange (name : Nat → Bytes) (first count : Nat) (duplicate : Error) :
    Except Error Unit :=
  if count < 2 then .ok ()
  else reject (!rangeDistinct count (fun index => nameHash 0 (name (first + index)))
    fun prior index => asciiEqlIgnoreCase (name (first + prior)) (name (first + index))) duplicate

def validateDuplicateKeys : Except Error Unit :=
  (List.range view.header.key_count).forM fun parent =>
    validateNameRange (fun index => view.keyName (view.keyAt index))
      (view.keyAt parent).first_child_index (view.keyAt parent).child_count .DuplicateKey

def validateDuplicateValues : Except Error Unit :=
  (List.range view.header.key_count).forM fun owner =>
    validateNameRange (fun index => view.valueName (view.valueAt index))
      (view.keyAt owner).first_value_index (view.keyAt owner).value_count .DuplicateValue

/-- The checks of a hive. -/
def validate : Except Error Unit := do
  let root := view.keyAt 0
  reject (root.parent_index ≠ invalid_index ∨ root.name_len ≠ 0 ∨ root.name_offset ≠ 0) .BadRootKey
  (List.range view.header.key_count).forM (validateKey view)
  (List.range view.header.value_count).forM (validateValue view)
  validateDuplicateKeys view
  validateDuplicateValues view

end Validate

/-- The sum of all bytes outside of the checksum. -/
def sum32 (bytes : Bytes) : UInt32 :=
  (bytes.take 76 ++ bytes.drop 80).foldl (fun sum byte => sum + byte.toUInt32) 0

/-- The fields of a header, for a kind that was recognized. -/
def readHeader (bytes : Bytes) (hive_kind : HiveKind) : Header where
  hive_kind
  generation := readU64 bytes 24
  key_table_offset := readU32 bytes 32
  key_count := readU32 bytes 36
  value_table_offset := readU32 bytes 40
  value_count := readU32 bytes 44
  string_heap_offset := readU32 bytes 48
  string_heap_size := readU32 bytes 52
  data_heap_offset := readU32 bytes 56
  data_heap_size := readU32 bytes 60
  checksum_type := readU32 bytes 72
  checksum := readU32 bytes 76

/-- The header of a byte string. -/
def parseHeader (bytes : Bytes) : Except Error Header := do
  reject (bytes.length < header_size) .FileTooSmall
  reject (bytes.take 4 ≠ magic) .BadMagic
  reject (readU16 bytes 4 ≠ 1) .BadVersion
  reject (readU16 bytes 6 ≠ header_size) .BadHeaderSize
  reject (readU16 bytes 8 ≠ 1) .BadEndian
  match HiveKind.fromInt (readU16 bytes 10) with
  | none => throw .BadHiveKind
  | some hive_kind =>
    reject (readU32 bytes 12 ≠ 0) .BadFlags
    reject (readU64 bytes 16 ≠ bytes.length) .BadFileSize
    reject (readU32 bytes 64 ≠ 0 ∨ readU32 bytes 68 ≠ 0) .BadRange
    let checksum_type := readU32 bytes 72
    reject (checksum_type ≠ 0 ∧ checksum_type ≠ 1) .BadChecksumType
    reject (!((bytes.drop 80).take 16).all (· = 0)) .BadReserved
    reject (checksum_type = 1 ∧ (sum32 bytes).toNat ≠ readU32 bytes 76) .BadChecksum
    return readHeader bytes hive_kind

/-- Read and check a hive. -/
def parseHive (bytes : Bytes) : Except Error HiveView := do
  let header ← parseHeader bytes
  reject (header.key_count = 0) .BadRootKey
  let key_table ← tableRange bytes header.key_table_offset header.key_count key_record_size
  let value_table ← tableRange bytes header.value_table_offset header.value_count value_record_size
  let string_heap ← byteRange bytes header.string_heap_offset header.string_heap_size
  let data_heap ← byteRange bytes header.data_heap_offset header.data_heap_size
  let view : HiveView := { bytes, header, key_table, value_table, string_heap, data_heap }
  validate view
  return view

end R4OS.Registry
