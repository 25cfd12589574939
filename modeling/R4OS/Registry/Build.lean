import R4OS.Registry.Layout

/-!
# Building a hive

The builder collects the keys of all values in a scratch table, numbers them level by level, and
writes the records and heaps of the hive into one buffer.  The result is read back by the parser.
-/

namespace R4OS.Registry

open Hashing Text

/-- A value with the path of its key. -/
structure BuildValue where
  key_path : Bytes
  name : Bytes
  value_type : ValueType
  data : Bytes
  deriving DecidableEq, Inhabited

/-- A key in the scratch table. -/
structure BuildKey where
  parent : Nat := invalid_index
  name : Bytes := []
  flat_index : Nat := invalid_index
  first_child : Nat := invalid_index
  last_child : Nat := invalid_index
  next_sibling : Nat := invalid_index
  child_count : Nat := 0
  value_count : Nat := 0
  value_first : Nat := 0
  value_cursor : Nat := 0

/-- The capacities of the scratch memory. -/
structure BuildScratch where
  keys : Nat
  value_key_indices : Nat
  flat_key_order : Nat
  /-- Values are grouped when there is room for all of them here. -/
  value_order : Nat := 0

/-- The keys in use, and the buckets they are found by. -/
structure KeyTable where
  keys : List BuildKey
  buckets : Nat → Option Nat

/-- A key of the table. -/
def keyOf (keys : List BuildKey) (index : Nat) : BuildKey := keys.getD index {}

def isChild (keys : List BuildKey) (parent : Nat) (name : Bytes) (index : Nat) : Bool :=
  decide ((keyOf keys index).parent = parent) && asciiEqlIgnoreCase (keyOf keys index).name name

def childSlot (bucket_len parent : Nat) (name : Bytes) : Nat :=
  slotOf bucket_len (nameHash parent name).toNat

def findBuildChild (bucket_len : Nat) (table : KeyTable) (parent : Nat) (name : Bytes) :
    Option Nat :=
  if bucket_len ≠ 0 then
    match search bucket_len table.buckets (isChild table.keys parent name) bucket_len
        (childSlot bucket_len parent name) with
    | some (.inl index) => some index
    | _ => none
  else (List.range' 1 (table.keys.length - 1)).find? (isChild table.keys parent name)

/-- Put a new key behind the last child of its parent. -/
def linkChild (keys : List BuildKey) (parent child : Nat) : List BuildKey :=
  let linked :=
    if (keyOf keys parent).last_child ≠ invalid_index then
      keys.modify (keyOf keys parent).last_child fun key => { key with next_sibling := child }
    else keys.modify parent fun key => { key with first_child := child }
  linked.modify parent fun key =>
    { key with last_child := child, child_count := key.child_count + 1 }

/-- Put a new key into the first free bucket of its name. -/
def addBucket (bucket_len : Nat) (buckets : Nat → Option Nat) (parent : Nat) (name : Bytes)
    (index : Nat) : Nat → Option Nat :=
  match search bucket_len buckets (fun _ => false) bucket_len (childSlot bucket_len parent name) with
  | some (.inr slot) => Function.update buckets slot (some index)
  | _ => buckets

def addChild (bucket_len : Nat) (table : KeyTable) (parent : Nat) (name : Bytes) : KeyTable where
  keys := linkChild (table.keys ++ [{ parent, name }]) parent table.keys.length
  buckets :=
    if bucket_len ≠ 0 then addBucket bucket_len table.buckets parent name table.keys.length
    else table.buckets

/-- Go to the child of a name, and add it when there is none. -/
def ensureChild (capacity bucket_len : Nat) (state : KeyTable × Nat) (component : Bytes) :
    Except Error (KeyTable × Nat) := do
  reject (!validKeyName component) .BadName
  match findBuildChild bucket_len state.1 state.2 component with
  | some child => return (state.1, child)
  | none =>
    reject (capacity ≤ state.1.keys.length) .TooManyEntries
    return (addChild bucket_len state.1 state.2 component, state.1.keys.length)

def ensureBuildKey (capacity bucket_len : Nat) (kind : HiveKind) (table : KeyTable)
    (path : Bytes) : Except Error (KeyTable × Nat) := do
  match parseRoot path with
  | none => throw .InvalidPath
  | some parsed =>
    reject (parsed.kind ≠ kind) .RootMismatch
    (pathComponents parsed.rest).foldlM (ensureChild capacity bucket_len) (table, 0)

/-- The number of buckets for a number of keys.  Large tables have none. -/
def keyBuckets (capacity : Nat) : Nat := if capacity ≤ 256 then bucketCount capacity else 0

/-- Take in one value.  The owners are the keys of the values so far. -/
def addValue (scratch : BuildScratch) (kind : HiveKind) (state : KeyTable × List Nat)
    (value : BuildValue) : Except Error (KeyTable × List Nat) := do
  validateValuePayload value.value_type value.data
  reject (!validValueName value.name) .BadName
  let (table, key_index) ← ensureBuildKey scratch.keys (keyBuckets scratch.keys) kind state.1
    value.key_path
  let keys := table.keys.modify key_index fun key => { key with value_count := key.value_count + 1 }
  return ({ table with keys }, state.2 ++ [key_index])

/-- The names of the values of one key differ. -/
def validateBuildDuplicates (values : List BuildValue) (owners : List Nat) : Except Error Unit :=
  let name index := (values.getD index default).name
  let owner index := owners.getD index 0
  reject (!rangeDistinct values.length (fun index => nameHash (owner index) (name index))
    fun prior index => decide (owner prior = owner index) &&
      asciiEqlIgnoreCase (name prior) (name index)) .DuplicateValue

/-- Number a child and its later siblings.  The fuel is the capacity of the order, which is full when
the fuel runs out. -/
def flattenSiblings (capacity : Nat) : (fuel child : Nat) → List BuildKey × List Nat →
    Except Error (List BuildKey × List Nat)
  | 0, child, state => if child = invalid_index then .ok state else .error .TooManyEntries
  | fuel + 1, child, (keys, order) =>
    if child = invalid_index then .ok (keys, order)
    else do
      reject (capacity ≤ order.length) .TooManyEntries
      let keys := keys.modify child fun key => { key with flat_index := order.length }
      flattenSiblings capacity fuel (keyOf keys child).next_sibling (keys, order ++ [child])

/-- Number the children of every key that has a number. -/
def flattenFrom (capacity : Nat) : (fuel cursor : Nat) → List BuildKey × List Nat →
    Except Error (List BuildKey × List Nat)
  | 0, _, state => .ok state
  | fuel + 1, cursor, (keys, order) =>
    if cursor < order.length then do
      let parent := order.getD cursor 0
      let state ← flattenSiblings capacity capacity (keyOf keys parent).first_child (keys, order)
      flattenFrom capacity fuel (cursor + 1) state
    else .ok (keys, order)

/-- Number all keys level by level. -/
def flattenKeys (capacity : Nat) (keys : List BuildKey) :
    Except Error (List BuildKey × List Nat) :=
  flattenFrom capacity capacity 0
    (keys.modify 0 fun key => { key with flat_index := 0 }, [0])

/-- Give each key the place of its first value. -/
def placeValues (state : List BuildKey × Nat) (index : Nat) : List BuildKey × Nat :=
  (state.1.modify index fun key => { key with value_first := state.2 },
    state.2 + (keyOf state.1 index).value_count)

/-- Put the values of each key behind each other. -/
def groupValue (owners : List Nat) (state : List BuildKey × (Nat → Nat)) (index : Nat) :
    List BuildKey × (Nat → Nat) :=
  let owner := owners.getD index 0
  let key := keyOf state.1 owner
  (state.1.modify owner fun key => { key with value_cursor := key.value_cursor + 1 },
    Function.update state.2 (key.value_first + key.value_cursor) index)

def writeBytes (out : Bytes) (offset : Nat) (data : Bytes) : Bytes :=
  out.take offset ++ (data ++ out.drop (offset + data.length))

def writeU16 (out : Bytes) (offset value : Nat) : Bytes := writeBytes out offset (u16Bytes value)

def writeU32 (out : Bytes) (offset value : Nat) : Bytes := writeBytes out offset (u32Bytes value)

def writeU64 (out : Bytes) (offset value : Nat) : Bytes := writeBytes out offset (u64Bytes value)

def writeKeyRecord (out : Bytes) (offset : Nat) (key : KeyRecord) : Bytes :=
  let out := writeU32 out offset key.parent_index
  let out := writeU32 out (offset + 4) key.name_offset
  let out := writeU16 out (offset + 8) key.name_len
  let out := writeU32 out (offset + 12) key.first_value_index
  let out := writeU32 out (offset + 16) key.value_count
  let out := writeU32 out (offset + 20) key.first_child_index
  writeU32 out (offset + 24) key.child_count

def writeValueRecord (out : Bytes) (offset : Nat) (value : ValueRecord) : Bytes :=
  let out := writeU32 out offset value.owner_key_index
  let out := writeU32 out (offset + 4) value.name_offset
  let out := writeU16 out (offset + 8) value.name_len
  let out := writeU16 out (offset + 10) value.value_type.toInt
  let out := writeU32 out (offset + 16) value.data_offset
  writeU32 out (offset + 20) value.data_len

/-- Append a text to a heap.  The result has the buffer, the offset of the text and the cursor. -/
def appendBuildData (out data : Bytes) (heap_offset cursor : Nat) :
    Except Error (Bytes × Nat × Nat) := do
  reject (out.length < heap_offset + cursor + data.length) .OutOfMemory
  return (writeBytes out (heap_offset + cursor) data, cursor, cursor + data.length)

/-- Names are at most 65535 bytes long. -/
def appendBuildString (out text : Bytes) (heap_offset cursor : Nat) :
    Except Error (Bytes × Nat × Nat) := do
  reject (0xffff < text.length) .TooManyEntries
  appendBuildData out text heap_offset cursor

/-- The keys and values of a hive in their order. -/
structure BuildPlan where
  keys : List BuildKey
  order : List Nat
  owners : List Nat
  values : List BuildValue
  /-- The grouped values, where there is room for them. -/
  value_order : Option (Nat → Nat)

namespace BuildPlan

variable (plan : BuildPlan)

def string_heap_size : Nat :=
  (plan.order.map fun index => (keyOf plan.keys index).name.length).sum +
    (plan.values.map fun value => value.name.length).sum

def data_heap_size : Nat := (plan.values.map fun value => value.data.length).sum

def value_table_offset : Nat := header_size + plan.keys.length * key_record_size

def string_heap_offset : Nat := plan.value_table_offset + plan.values.length * value_record_size

def data_heap_offset : Nat := plan.string_heap_offset + plan.string_heap_size

def file_size : Nat := plan.data_heap_offset + plan.data_heap_size

/-- The values of a key. -/
def sources (build_i : Nat) : List Nat :=
  match plan.value_order with
  | some value_order =>
    (List.range (keyOf plan.keys build_i).value_count).map fun index =>
      value_order ((keyOf plan.keys build_i).value_first + index)
  | none =>
    (List.range plan.values.length).filter fun index => plan.owners.getD index 0 = build_i

/-- The number of a key, or the index that refers to nothing. -/
def flatOf (index : Nat) : Nat :=
  if index = invalid_index then invalid_index else (keyOf plan.keys index).flat_index

end BuildPlan

/-- The buffer and how far its tables and heaps are filled. -/
structure Emitted where
  out : Bytes
  string_cursor : Nat := 0
  data_cursor : Nat := 0
  flat_value_index : Nat := 0

/-- Write a value of the key with a number. -/
def emitValue (plan : BuildPlan) (flat_i : Nat) (emitted : Emitted) (source : Nat) :
    Except Error Emitted := do
  let value := plan.values.getD source default
  let (out, name_offset, string_cursor) ←
    appendBuildString emitted.out value.name plan.string_heap_offset emitted.string_cursor
  let (out, data_offset, data_cursor) ←
    appendBuildData out value.data plan.data_heap_offset emitted.data_cursor
  return {
    out := writeValueRecord out
      (plan.value_table_offset + emitted.flat_value_index * value_record_size)
      { owner_key_index := flat_i
        name_offset
        name_len := value.name.length
        value_type := value.value_type
        data_offset
        data_len := value.data.length }
    string_cursor
    data_cursor
    flat_value_index := emitted.flat_value_index + 1 }

/-- Write a key and its values. -/
def emitKey (plan : BuildPlan) (emitted : Emitted) (flat_i : Nat) : Except Error Emitted := do
  let build_i := plan.order.getD flat_i 0
  let key := keyOf plan.keys build_i
  let (out, name_offset, string_cursor) ←
    appendBuildString emitted.out key.name plan.string_heap_offset emitted.string_cursor
  let out := writeKeyRecord out (header_size + flat_i * key_record_size)
    { parent_index := plan.flatOf key.parent
      name_offset
      name_len := key.name.length
      first_value_index := if key.value_count = 0 then invalid_index else emitted.flat_value_index
      value_count := key.value_count
      first_child_index := plan.flatOf key.first_child
      child_count := key.child_count }
  (plan.sources build_i).foldlM (emitValue plan flat_i) { emitted with out, string_cursor }

/-- Write the header. -/
def emitHeader (plan : BuildPlan) (kind : HiveKind) (generation : UInt64) (out : Bytes) : Bytes :=
  let out := writeBytes out 0 magic
  let out := writeU16 out 4 1
  let out := writeU16 out 6 header_size
  let out := writeU16 out 8 1
  let out := writeU16 out 10 kind.toInt
  let out := writeU64 out 16 plan.file_size
  let out := writeU64 out 24 generation.toNat
  let out := writeU32 out 32 header_size
  let out := writeU32 out 36 plan.keys.length
  let out := writeU32 out 40 (if plan.values.length = 0 then 0 else plan.value_table_offset)
  let out := writeU32 out 44 plan.values.length
  let out := writeU32 out 48 (if plan.string_heap_size = 0 then 0 else plan.string_heap_offset)
  let out := writeU32 out 52 plan.string_heap_size
  let out := writeU32 out 56 (if plan.data_heap_size = 0 then 0 else plan.data_heap_offset)
  writeU32 out 60 plan.data_heap_size

/-- Write a plan into a buffer. -/
def emitPlan (plan : BuildPlan) (kind : HiveKind) (generation : UInt64) (out : Bytes) :
    Except Error Bytes := do
  reject (0xffffffff < plan.file_size) .TooManyEntries
  reject (out.length < plan.file_size) .OutOfMemory
  let out := List.replicate plan.file_size 0 ++ out.drop plan.file_size
  let emitted ← (List.range plan.order.length).foldlM (emitKey plan) { out }
  return (emitHeader plan kind generation emitted.out).take plan.file_size

/-- Place the values of every key, and group them when there is room. -/
def groupValues (scratch : BuildScratch) (values : List BuildValue) (owners : List Nat)
    (keys : List BuildKey) (order : List Nat) : BuildPlan :=
  let placed := (order.foldl placeValues (keys, 0)).1
  if values.length ≤ scratch.value_order then
    let grouped := (List.range values.length).foldl (groupValue owners) (placed, fun _ => 0)
    { keys := grouped.1, order, owners, values, value_order := some grouped.2 }
  else { keys := placed, order, owners, values, value_order := none }

def planHive (scratch : BuildScratch) (kind : HiveKind) (values : List BuildValue) :
    Except Error BuildPlan := do
  reject (scratch.keys = 0 ∨ scratch.flat_key_order = 0) .TooManyEntries
  reject (scratch.value_key_indices < values.length) .TooManyEntries
  let (table, owners) ← values.foldlM (addValue scratch kind)
    ({ keys := [{}], buckets := fun _ => none }, [])
  validateBuildDuplicates values owners
  let (keys, order) ← flattenKeys scratch.flat_key_order table.keys
  return groupValues scratch values owners keys order

def buildHiveViewInto (out : Bytes) (scratch : BuildScratch) (kind : HiveKind)
    (generation : UInt64) (values : List BuildValue) : Except Error HiveView := do
  let plan ← planHive scratch kind values
  let bytes ← emitPlan plan kind generation out
  parseHive bytes

end R4OS.Registry
