import R4OS.Registry.Plan

/-!
# Writing a plan

The builder writes records and heaps side by side into one zeroed buffer.  At every moment the buffer
is the layout written so far with zeros in its gaps, and in the end it is the layout of the plan.
-/

namespace R4OS.Registry

open Text

/-- Zeroed memory. -/
def zeros (size : Nat) : Bytes := List.replicate size 0

@[simp] theorem zeros_length (size : Nat) : (zeros size).length = size := List.length_replicate

theorem zeros_split {size part : Nat} (fits : part ≤ size) :
    zeros size = zeros part ++ zeros (size - part) := by
  rw [zeros, zeros, zeros, List.replicate_append_replicate, Nat.add_sub_cancel' fits]

section Write

variable {front rest : Bytes}

theorem writeBytes_append (front out : Bytes) (offset : Nat) (data : Bytes) :
    writeBytes (front ++ out) (front.length + offset) data =
      front ++ writeBytes out offset data := by
  unfold writeBytes
  rw [List.take_length_add_append, Nat.add_assoc, List.drop_length_add_append, List.append_assoc]

theorem writeBytes_zeros {size : Nat} {data : Bytes} (fits : data.length ≤ size) :
    writeBytes (front ++ (zeros size ++ rest)) front.length data =
      front ++ (data ++ (zeros (size - data.length) ++ rest)) := by
  have written := writeBytes_append front (zeros size ++ rest) 0 data
  rw [Nat.add_zero] at written
  rw [written, writeBytes, List.take_zero, List.nil_append, Nat.zero_add, zeros_split fits,
    List.append_assoc]
  congr 2
  have drop : (zeros data.length ++ (zeros (size - data.length) ++ rest)).drop
      (zeros data.length).length = zeros (size - data.length) ++ rest := List.drop_left
  rwa [zeros_length] at drop

theorem writeKeyRecord_zeros (key : KeyRecord) :
    writeKeyRecord (front ++ (zeros key_record_size ++ rest)) front.length key =
      front ++ (keyRecordBytes key ++ rest) := by
  have moved (out : Bytes) (offset : Nat) :
      writeKeyRecord (front ++ out) (front.length + offset) key =
        front ++ writeKeyRecord out offset key := by
    simp only [writeKeyRecord, writeU32, writeU16, Nat.add_assoc, writeBytes_append]
  have written := moved (zeros key_record_size ++ rest) 0
  rw [Nat.add_zero] at written
  rw [written]
  rfl

theorem writeValueRecord_zeros (value : ValueRecord) :
    writeValueRecord (front ++ (zeros value_record_size ++ rest)) front.length value =
      front ++ (valueRecordBytes value ++ rest) := by
  have moved (out : Bytes) (offset : Nat) :
      writeValueRecord (front ++ out) (front.length + offset) value =
        front ++ writeValueRecord out offset value := by
    simp only [writeValueRecord, writeU32, writeU16, Nat.add_assoc, writeBytes_append]
  have written := moved (zeros value_record_size ++ rest) 0
  rw [Nat.add_zero] at written
  rw [written]
  rfl

end Write

/-- Append a value of the key with a number. -/
def encodeValue (plan : BuildPlan) (flat_i : Nat) (layout : Layout) (source : Nat) : Layout :=
  let value := plan.values.getD source default
  { layout with
    values := layout.values ++
      [{ owner_key_index := flat_i
         name_offset := layout.strings.length
         name_len := value.name.length
         value_type := value.value_type
         data_offset := layout.data.length
         data_len := value.data.length }]
    strings := layout.strings ++ value.name
    data := layout.data ++ value.data }

def keyRecordOf (plan : BuildPlan) (build_i name_offset flat_value_index : Nat) : KeyRecord :=
  let key := keyOf plan.keys build_i
  { parent_index := plan.flatOf key.parent
    name_offset
    name_len := key.name.length
    first_value_index := if key.value_count = 0 then invalid_index else flat_value_index
    value_count := key.value_count
    first_child_index := plan.flatOf key.first_child
    child_count := key.child_count }

/-- Append a key without its values. -/
def encodeKeyRecord (plan : BuildPlan) (layout : Layout) (build_i : Nat) : Layout :=
  { layout with
    keys := layout.keys ++
      [keyRecordOf plan build_i layout.strings.length layout.values.length]
    strings := layout.strings ++ (keyOf plan.keys build_i).name }

/-- Append a key and its values. -/
def encodeKey (plan : BuildPlan) (layout : Layout) (flat_i : Nat) : Layout :=
  let build_i := plan.order.getD flat_i 0
  (plan.sources build_i).foldl (encodeValue plan flat_i) (encodeKeyRecord plan layout build_i)

def encodePlan (plan : BuildPlan) (kind : HiveKind) (generation : UInt64) : Layout :=
  (List.range plan.order.length).foldl (encodeKey plan)
    { kind, generation := generation.toNat, keys := [], values := [], strings := [], data := [] }

def bufferOf (plan : BuildPlan) (tail : Bytes) (layout : Layout) : Bytes :=
  zeros header_size ++ (layout.keyTable ++
    (zeros ((plan.keys.length - layout.keys.length) * key_record_size) ++ (layout.valueTable ++
      (zeros ((plan.values.length - layout.values.length) * value_record_size) ++
        (layout.strings ++ (zeros (plan.string_heap_size - layout.strings.length) ++
          (layout.data ++ (zeros (plan.data_heap_size - layout.data.length) ++ tail))))))))

/-- The state of the builder that has written a layout. -/
def emittedOf (plan : BuildPlan) (tail : Bytes) (layout : Layout) : Emitted where
  out := bufferOf plan tail layout
  string_cursor := layout.strings.length
  data_cursor := layout.data.length
  flat_value_index := layout.values.length

/-- A layout that leaves room in its buffer for some more. -/
structure Room (plan : BuildPlan) (layout : Layout) (keys values strings data : Nat) : Prop where
  keys : layout.keys.length + keys ≤ plan.keys.length
  values : layout.values.length + values ≤ plan.values.length
  strings : layout.strings.length + strings ≤ plan.string_heap_size
  data : layout.data.length + data ≤ plan.data_heap_size

section Room

variable {plan : BuildPlan} {tail : Bytes} {layout : Layout} {keys values strings data : Nat}

theorem zeros_record {total used size : Nat} (fits : used < total) :
    zeros ((total - used) * size) = zeros size ++ zeros ((total - (used + 1)) * size) := by
  have split : (total - used) * size = size + (total - (used + 1)) * size := by
    rw [show total - used = total - (used + 1) + 1 by omega, Nat.add_mul, Nat.one_mul, Nat.add_comm]
  rw [split, zeros, zeros, zeros, List.replicate_append_replicate]

/-- A buffer up to the end of its keys, its values, its names and its data. -/
def keysFront (layout : Layout) : Bytes := zeros header_size ++ layout.keyTable

def valuesFront (plan : BuildPlan) (layout : Layout) : Bytes :=
  keysFront layout ++
    (zeros ((plan.keys.length - layout.keys.length) * key_record_size) ++ layout.valueTable)

def stringsFront (plan : BuildPlan) (layout : Layout) : Bytes :=
  valuesFront plan layout ++
    (zeros ((plan.values.length - layout.values.length) * value_record_size) ++ layout.strings)

def dataFront (plan : BuildPlan) (layout : Layout) : Bytes :=
  stringsFront plan layout ++
    (zeros (plan.string_heap_size - layout.strings.length) ++ layout.data)

theorem keysFront_length (layout : Layout) :
    (keysFront layout).length = header_size + layout.keys.length * key_record_size := by
  rw [keysFront, List.length_append, zeros_length, Layout.keyTable_length]

section Fronts

variable (room : Room plan layout keys values strings data)

include room

theorem Room.valuesFront_length : (valuesFront plan layout).length =
    plan.value_table_offset + layout.values.length * value_record_size := by
  have := room.keys
  simp only [valuesFront, List.length_append, keysFront_length, zeros_length,
    Layout.valueTable_length, BuildPlan.value_table_offset, header_size, key_record_size]
  omega

theorem Room.stringsFront_length :
    (stringsFront plan layout).length = plan.string_heap_offset + layout.strings.length := by
  have := room.values
  simp only [stringsFront, List.length_append, room.valuesFront_length, zeros_length,
    BuildPlan.string_heap_offset, value_record_size]
  omega

theorem Room.dataFront_length :
    (dataFront plan layout).length = plan.data_heap_offset + layout.data.length := by
  have := room.strings
  simp only [dataFront, List.length_append, room.stringsFront_length, zeros_length,
    BuildPlan.data_heap_offset]
  omega

theorem Room.write_string {text : Bytes} (fits : text.length ≤ strings) :
    writeBytes (bufferOf plan tail layout) (plan.string_heap_offset + layout.strings.length) text =
      bufferOf plan tail { layout with strings := layout.strings ++ text } := by
  have shape : bufferOf plan tail layout = stringsFront plan layout ++
      (zeros (plan.string_heap_size - layout.strings.length) ++
        (layout.data ++ (zeros (plan.data_heap_size - layout.data.length) ++ tail))) := by
    simp only [bufferOf, stringsFront, valuesFront, keysFront, List.append_assoc]
  have enough : text.length ≤ plan.string_heap_size - layout.strings.length := by
    have := room.strings
    omega
  rw [shape, ← room.stringsFront_length, writeBytes_zeros enough]
  simp only [bufferOf, stringsFront, valuesFront, keysFront, Layout.keyTable, Layout.valueTable,
    List.append_assoc, List.length_append, Nat.sub_sub]

theorem Room.write_data {text : Bytes} (fits : text.length ≤ data) :
    writeBytes (bufferOf plan tail layout) (plan.data_heap_offset + layout.data.length) text =
      bufferOf plan tail { layout with data := layout.data ++ text } := by
  have shape : bufferOf plan tail layout = dataFront plan layout ++
      (zeros (plan.data_heap_size - layout.data.length) ++ tail) := by
    simp only [bufferOf, dataFront, stringsFront, valuesFront, keysFront, List.append_assoc]
  have enough : text.length ≤ plan.data_heap_size - layout.data.length := by
    have := room.data
    omega
  rw [shape, ← room.dataFront_length, writeBytes_zeros enough]
  simp only [bufferOf, dataFront, stringsFront, valuesFront, keysFront, Layout.keyTable,
    Layout.valueTable, List.append_assoc, List.length_append, Nat.sub_sub]

variable (tail) in
theorem Room.write_key (some : 0 < keys) (key : KeyRecord) :
    writeKeyRecord (bufferOf plan tail layout)
        (header_size + layout.keys.length * key_record_size) key =
      bufferOf plan tail { layout with keys := layout.keys ++ [key] } := by
  have fits : layout.keys.length < plan.keys.length := by
    have := room.keys
    omega
  have shape : bufferOf plan tail layout = keysFront layout ++
      (zeros key_record_size ++ (zeros ((plan.keys.length - (layout.keys.length + 1)) *
        key_record_size) ++ (layout.valueTable ++
          (zeros ((plan.values.length - layout.values.length) * value_record_size) ++
            (layout.strings ++ (zeros (plan.string_heap_size - layout.strings.length) ++
              (layout.data ++ (zeros (plan.data_heap_size - layout.data.length) ++ tail)))))))) := by
    rw [bufferOf, zeros_record fits]
    simp [keysFront]
  rw [shape, ← keysFront_length, writeKeyRecord_zeros]
  simp [bufferOf, keysFront, Layout.keyTable, Layout.valueTable]

variable (tail) in
theorem Room.write_value (some : 0 < values) (value : ValueRecord) :
    writeValueRecord (bufferOf plan tail layout)
        (plan.value_table_offset + layout.values.length * value_record_size) value =
      bufferOf plan tail { layout with values := layout.values ++ [value] } := by
  have fits : layout.values.length < plan.values.length := by
    have := room.values
    omega
  have shape : bufferOf plan tail layout = valuesFront plan layout ++
      (zeros value_record_size ++ (zeros ((plan.values.length - (layout.values.length + 1)) *
        value_record_size) ++
          (layout.strings ++ (zeros (plan.string_heap_size - layout.strings.length) ++
            (layout.data ++ (zeros (plan.data_heap_size - layout.data.length) ++ tail)))))) := by
    rw [bufferOf, zeros_record fits]
    simp [valuesFront, keysFront]
  rw [shape, ← room.valuesFront_length, writeValueRecord_zeros]
  simp [bufferOf, valuesFront, keysFront, Layout.keyTable, Layout.valueTable]

end Fronts

theorem Room.buffer_length (room : Room plan layout keys values strings data) :
    (bufferOf plan tail layout).length = plan.file_size + tail.length := by
  have := room.keys
  have := room.values
  have := room.strings
  have := room.data
  simp only [bufferOf, List.length_append, zeros_length, Layout.keyTable_length,
    Layout.valueTable_length, BuildPlan.file_size, BuildPlan.data_heap_offset,
    BuildPlan.string_heap_offset, BuildPlan.value_table_offset, header_size, key_record_size,
    value_record_size]
  omega

end Room

def valueNameSize (plan : BuildPlan) (source : Nat) : Nat :=
  (plan.values.getD source default).name.length

def valueDataSize (plan : BuildPlan) (source : Nat) : Nat :=
  (plan.values.getD source default).data.length

/-- Names that fit the length fields of records. -/
structure ShortNames (plan : BuildPlan) : Prop where
  keys : ∀ index, (keyOf plan.keys index).name.length ≤ 0xffff
  values : ∀ source, valueNameSize plan source ≤ 0xffff

section Steps

variable {plan : BuildPlan} {tail : Bytes} {layout : Layout} {keys values strings data : Nat}

theorem appendBuildData_eq {out text : Bytes} {heap_offset cursor : Nat}
    (fits : heap_offset + cursor + text.length ≤ out.length) :
    appendBuildData out text heap_offset cursor =
      .ok (writeBytes out (heap_offset + cursor) text, cursor, cursor + text.length) :=
  unit_bind_eq_ok.mpr ⟨reject_eq_ok.mpr (not_lt.mpr fits), rfl⟩

theorem Room.append_string (room : Room plan layout keys values strings data) {text : Bytes}
    (fits : text.length ≤ strings) (short : text.length ≤ 0xffff) :
    appendBuildString (bufferOf plan tail layout) text plan.string_heap_offset
        layout.strings.length =
      .ok (bufferOf plan tail { layout with strings := layout.strings ++ text },
        layout.strings.length, (layout.strings ++ text).length) := by
  have inside : plan.string_heap_offset + layout.strings.length + text.length ≤
      (bufferOf plan tail layout).length := by
    have := room.strings
    rw [room.buffer_length, BuildPlan.file_size, BuildPlan.data_heap_offset]
    omega
  refine unit_bind_eq_ok.mpr ⟨reject_eq_ok.mpr (not_lt.mpr short), ?_⟩
  rw [appendBuildData_eq inside, room.write_string fits, List.length_append]

theorem Room.append_data (room : Room plan layout keys values strings data) {text : Bytes}
    (fits : text.length ≤ data) :
    appendBuildData (bufferOf plan tail layout) text plan.data_heap_offset layout.data.length =
      .ok (bufferOf plan tail { layout with data := layout.data ++ text },
        layout.data.length, (layout.data ++ text).length) := by
  have inside : plan.data_heap_offset + layout.data.length + text.length ≤
      (bufferOf plan tail layout).length := by
    have := room.data
    rw [room.buffer_length, BuildPlan.file_size]
    omega
  rw [appendBuildData_eq inside, room.write_data fits, List.length_append]

variable (tail) in
theorem emitValue_eq (short : ShortNames plan) (source flat_i : Nat)
    (room : Room plan layout keys (values + 1) (valueNameSize plan source + strings)
      (valueDataSize plan source + data)) :
    emitValue plan flat_i (emittedOf plan tail layout) source =
        .ok (emittedOf plan tail (encodeValue plan flat_i layout source)) ∧
      Room plan (encodeValue plan flat_i layout source) keys values strings data := by
  have named : Room plan { layout with
      strings := layout.strings ++ (plan.values.getD source default).name } keys (values + 1)
      strings (valueDataSize plan source + data) := by
    refine ⟨room.keys, room.values, ?_, room.data⟩
    have := room.strings
    rw [valueNameSize] at this
    rw [List.length_append]
    omega
  have filled : Room plan { layout with
      strings := layout.strings ++ (plan.values.getD source default).name
      data := layout.data ++ (plan.values.getD source default).data } keys (values + 1)
      strings data := by
    refine ⟨room.keys, room.values, named.strings, ?_⟩
    have := room.data
    rw [valueDataSize] at this
    rw [List.length_append]
    omega
  constructor
  · refine bind_eq_ok.mpr ⟨_, room.append_string (Nat.le_add_right _ _) (short.values source), ?_⟩
    refine bind_eq_ok.mpr ⟨_, named.append_data (Nat.le_add_right _ _), ?_⟩
    have written := filled.write_value tail (Nat.succ_pos values)
      { owner_key_index := flat_i
        name_offset := layout.strings.length
        name_len := (plan.values.getD source default).name.length
        value_type := (plan.values.getD source default).value_type
        data_offset := layout.data.length
        data_len := (plan.values.getD source default).data.length }
    dsimp only [emittedOf] at written ⊢
    rw [written]
    simp only [encodeValue, List.length_append, List.length_singleton]
    rfl
  · refine ⟨room.keys, ?_, filled.strings, filled.data⟩
    have := room.values
    simp only [encodeValue, List.length_append, List.length_singleton]
    omega

variable (tail) in
theorem emitValues_eq (short : ShortNames plan) (flat_i : Nat) (sources : List Nat)
    (room : Room plan layout keys (sources.length + values)
      ((sources.map (valueNameSize plan)).sum + strings)
      ((sources.map (valueDataSize plan)).sum + data)) :
    sources.foldlM (emitValue plan flat_i) (emittedOf plan tail layout) =
        .ok (emittedOf plan tail (sources.foldl (encodeValue plan flat_i) layout)) ∧
      Room plan (sources.foldl (encodeValue plan flat_i) layout) keys values strings data := by
  induction sources generalizing layout with
  | nil => exact ⟨rfl, by simpa using room⟩
  | cons source sources induction =>
    have first : Room plan layout keys (sources.length + values + 1)
        (valueNameSize plan source + ((sources.map (valueNameSize plan)).sum + strings))
        (valueDataSize plan source + ((sources.map (valueDataSize plan)).sum + data)) := by
      obtain ⟨keys_fit, values_fit, strings_fit, data_fit⟩ := room
      rw [List.length_cons] at values_fit
      rw [List.map_cons, List.sum_cons] at strings_fit data_fit
      exact ⟨keys_fit, by omega, by omega, by omega⟩
    obtain ⟨emitted, rest⟩ := emitValue_eq tail short source flat_i first
    rw [List.foldlM_cons, List.foldl_cons, emitted]
    exact induction rest

/-- Bytes of the names of a key and its values. -/
def keyNameSize (plan : BuildPlan) (flat_i : Nat) : Nat :=
  (keyOf plan.keys (plan.order.getD flat_i 0)).name.length +
    ((plan.sources (plan.order.getD flat_i 0)).map (valueNameSize plan)).sum

/-- Bytes of the data of the values of a key. -/
def keyDataSize (plan : BuildPlan) (flat_i : Nat) : Nat :=
  ((plan.sources (plan.order.getD flat_i 0)).map (valueDataSize plan)).sum

/-- Number of the values of a key. -/
def keyValueSize (plan : BuildPlan) (flat_i : Nat) : Nat :=
  (plan.sources (plan.order.getD flat_i 0)).length

theorem encodeValues_keys (flat_i : Nat) (sources : List Nat) (layout : Layout) :
    (sources.foldl (encodeValue plan flat_i) layout).keys = layout.keys := by
  induction sources generalizing layout with
  | nil => rfl
  | cons source sources induction => exact induction _

variable (tail) in
theorem emitKey_eq (short : ShortNames plan)
    (room : Room plan layout (keys + 1) (keyValueSize plan layout.keys.length + values)
      (keyNameSize plan layout.keys.length + strings)
      (keyDataSize plan layout.keys.length + data)) :
    emitKey plan (emittedOf plan tail layout) layout.keys.length =
        .ok (emittedOf plan tail (encodeKey plan layout layout.keys.length)) ∧
      Room plan (encodeKey plan layout layout.keys.length) keys values strings data := by
  obtain ⟨build_i, position⟩ : ∃ build_i, plan.order.getD layout.keys.length 0 = build_i :=
    ⟨_, rfl⟩
  rw [keyValueSize, keyNameSize, keyDataSize, position, Nat.add_assoc] at room
  have named : Room plan { layout with
      strings := layout.strings ++ (keyOf plan.keys build_i).name } (keys + 1)
      ((plan.sources build_i).length + values)
      (((plan.sources build_i).map (valueNameSize plan)).sum + strings)
      (((plan.sources build_i).map (valueDataSize plan)).sum + data) := by
    refine ⟨room.keys, room.values, ?_, room.data⟩
    have := room.strings
    rw [List.length_append]
    omega
  have opened : Room plan (encodeKeyRecord plan layout build_i) keys
      ((plan.sources build_i).length + values)
      (((plan.sources build_i).map (valueNameSize plan)).sum + strings)
      (((plan.sources build_i).map (valueDataSize plan)).sum + data) := by
    refine ⟨?_, room.values, named.strings, room.data⟩
    have := room.keys
    simp only [encodeKeyRecord, List.length_append, List.length_singleton]
    omega
  obtain ⟨emitted, rest⟩ :=
    emitValues_eq tail short layout.keys.length (plan.sources build_i) opened
  unfold encodeKey emitKey
  rw [position]
  dsimp only
  refine ⟨bind_eq_ok.mpr ⟨_, room.append_string (Nat.le_add_right _ _) (short.keys build_i), ?_⟩,
    rest⟩
  dsimp only
  have written := named.write_key tail (Nat.succ_pos keys)
    (keyRecordOf plan build_i layout.strings.length layout.values.length)
  dsimp only [keyRecordOf] at written
  dsimp [emittedOf]
  rw [written]
  exact emitted

theorem encodeKey_length (plan : BuildPlan) (layout : Layout) (flat_i : Nat) :
    (encodeKey plan layout flat_i).keys.length = layout.keys.length + 1 := by
  rw [encodeKey, encodeValues_keys, encodeKeyRecord, List.length_append, List.length_singleton]

variable (tail) in
theorem emitKeys_eq (short : ShortNames plan) (count : Nat)
    (room : Room plan layout (count + keys)
      (((List.range' layout.keys.length count).map (keyValueSize plan)).sum + values)
      (((List.range' layout.keys.length count).map (keyNameSize plan)).sum + strings)
      (((List.range' layout.keys.length count).map (keyDataSize plan)).sum + data)) :
    (List.range' layout.keys.length count).foldlM (emitKey plan) (emittedOf plan tail layout) =
        .ok (emittedOf plan tail
          ((List.range' layout.keys.length count).foldl (encodeKey plan) layout)) ∧
      Room plan ((List.range' layout.keys.length count).foldl (encodeKey plan) layout)
        keys values strings data := by
  induction count generalizing layout with
  | zero => exact ⟨rfl, by simpa using room⟩
  | succ count induction =>
    rw [List.range'_succ] at room ⊢
    have first : Room plan layout (count + keys + 1)
        (keyValueSize plan layout.keys.length +
          (((List.range' (layout.keys.length + 1) count).map (keyValueSize plan)).sum + values))
        (keyNameSize plan layout.keys.length +
          (((List.range' (layout.keys.length + 1) count).map (keyNameSize plan)).sum + strings))
        (keyDataSize plan layout.keys.length +
          (((List.range' (layout.keys.length + 1) count).map (keyDataSize plan)).sum + data)) := by
      obtain ⟨keys_fit, values_fit, strings_fit, data_fit⟩ := room
      rw [List.map_cons, List.sum_cons] at values_fit strings_fit data_fit
      exact ⟨by omega, by omega, by omega, by omega⟩
    obtain ⟨emitted, rest⟩ := emitKey_eq tail short first
    rw [← encodeKey_length plan layout layout.keys.length] at rest ⊢
    rw [List.foldlM_cons, List.foldl_cons, emitted]
    exact induction rest

end Steps

section Whole

variable {kind : HiveKind} {values : List BuildValue} {plan : BuildPlan}

theorem PlanSound.mem_sources (sound : PlanSound kind values plan) {owner index : Nat}
    (held : owner < plan.keys.length) :
    index ∈ plan.sources owner ↔ index < values.length ∧ plan.owners.getD index 0 = owner := by
  rw [sound.sources owner held, ownedValues, List.mem_filter, List.mem_range,
    sound.owned.length_eq, decide_eq_true_eq]

theorem PlanSound.sources_perm (sound : PlanSound kind values plan) :
    (plan.order.flatMap plan.sources).Perm (List.range values.length) := by
  have lengths := sound.owned.length_eq
  have owner_lt := owned_lt sound.owned
  have order_lt := sound.keys.order_lt sound.level
  rw [List.perm_ext_iff_of_nodup _ List.nodup_range]
  · intro index
    rw [List.mem_flatMap, List.mem_range]
    constructor
    · rintro ⟨owner, member, source⟩
      exact ((sound.mem_sources (order_lt owner member)).mp source).1
    · intro inside
      have held : plan.owners.getD index 0 < plan.keys.length := by
        rw [List.getD_eq_getElem _ _ (lengths ▸ inside)]
        exact owner_lt _ (List.getElem_mem _)
      exact ⟨_, sound.keys.mem_order sound.level _ held,
        (sound.mem_sources held).mpr ⟨inside, rfl⟩⟩
  · rw [List.nodup_flatMap]
    constructor
    · intro owner member
      rw [sound.sources owner (order_lt owner member)]
      exact List.nodup_range.filter _
    · apply sound.level.distinct.imp_of_mem
      intro first second first_mem second_mem different index source again
      exact different (((sound.mem_sources (order_lt _ first_mem)).mp source).2.symm.trans
        ((sound.mem_sources (order_lt _ second_mem)).mp again).2)

theorem sum_range_getD {Item : Type} (items : List Item) (fallback : Item) (size : Item → Nat) :
    ((List.range items.length).map fun position => size (items.getD position fallback)).sum =
      (items.map size).sum := by
  congr 1
  apply List.ext_getElem
  · simp
  · intro position _ inside
    rw [List.length_map] at inside
    rw [List.getElem_map, List.getElem_range, List.getElem_map, List.getD_eq_getElem _ _ inside]

theorem sum_flatMap {Item Part : Type} (items : List Item) (parts : Item → List Part)
    (size : Part → Nat) :
    (items.map fun item => ((parts item).map size).sum).sum =
      ((items.flatMap parts).map size).sum := by
  induction items with
  | nil => rfl
  | cons item items induction =>
    rw [List.map_cons, List.sum_cons, induction, List.flatMap_cons, List.map_append,
      List.sum_append]

theorem sum_map_add {Item : Type} (items : List Item) (first second : Item → Nat) :
    (items.map fun item => first item + second item).sum =
      (items.map first).sum + (items.map second).sum := by
  induction items with
  | nil => rfl
  | cons item items induction =>
    simp only [List.map_cons, List.sum_cons, induction]
    omega

theorem PlanSound.sum_sources (sound : PlanSound kind values plan) (size : BuildValue → Nat) :
    ((List.range plan.order.length).map fun flat_i =>
        ((plan.sources (plan.order.getD flat_i 0)).map fun source =>
          size (plan.values.getD source default)).sum).sum = (plan.values.map size).sum := by
  rw [sum_range_getD plan.order 0 fun build_i =>
    ((plan.sources build_i).map fun source => size (plan.values.getD source default)).sum]
  rw [sum_flatMap, (sound.sources_perm.map _).sum_eq, ← sound.values_eq, sum_range_getD]

theorem PlanSound.room (sound : PlanSound kind values plan) (generation : Nat) :
    Room plan { kind, generation, keys := [], values := [], strings := [], data := [] }
      (plan.order.length + 0)
      (((List.range' 0 plan.order.length).map (keyValueSize plan)).sum + 0)
      (((List.range' 0 plan.order.length).map (keyNameSize plan)).sum + 0)
      (((List.range' 0 plan.order.length).map (keyDataSize plan)).sum + 0) ∧
    plan.order.length = plan.keys.length ∧
    ((List.range' 0 plan.order.length).map (keyValueSize plan)).sum = plan.values.length ∧
    ((List.range' 0 plan.order.length).map (keyNameSize plan)).sum = plan.string_heap_size ∧
    ((List.range' 0 plan.order.length).map (keyDataSize plan)).sum = plan.data_heap_size := by
  have keys : plan.order.length = plan.keys.length := by
    rw [(sound.keys.order_perm sound.level).length_eq, List.length_range]
  rw [← List.range_eq_range']
  have counted : ((List.range plan.order.length).map (keyValueSize plan)).sum =
      plan.values.length := by
    have sums := sound.sum_sources fun _ => 1
    simp only [List.map_const', List.sum_replicate_nat, Nat.mul_one] at sums
    exact sums
  have named : ((List.range plan.order.length).map (keyNameSize plan)).sum =
      plan.string_heap_size := by
    have sums := sound.sum_sources fun value => value.name.length
    unfold keyNameSize
    rw [sum_map_add, sum_range_getD plan.order 0 fun build_i =>
      (keyOf plan.keys build_i).name.length]
    exact congrArg _ sums
  have filled : ((List.range plan.order.length).map (keyDataSize plan)).sum =
      plan.data_heap_size := sound.sum_sources fun value => value.data.length
  refine ⟨⟨?_, ?_, ?_, ?_⟩, keys, counted, named, filled⟩
  · simp [keys]
  · simp [counted]
  · simp [named]
  · simp [filled]

theorem PlanSound.shortNames (sound : PlanSound kind values plan) : ShortNames plan := by
  have short (name : Bytes) (allow_empty : Bool) (valid : validName name allow_empty = true) :
      name.length ≤ 0xffff := by
    unfold validName at valid
    split at valid
    · next empty => simp [empty]
    · simp only [Bool.and_eq_true, decide_eq_true_eq] at valid
      omega
  constructor
  · intro index
    by_cases inside : index < plan.keys.length
    · by_cases root : index = 0
      · rw [root, sound.keys.root_name]
        exact Nat.zero_le _
      · exact short _ _ (sound.keys.names index inside root)
    · rw [keyOf_of_le (not_lt.mp inside)]
      exact Nat.zero_le _
  · intro source
    unfold valueNameSize
    rw [sound.values_eq]
    by_cases inside : source < values.length
    · have accepted : ∀ value ∈ values, value.WellFormed kind := by
        intro value member
        obtain ⟨index, bound, rfl⟩ := List.getElem_of_mem member
        have owned := sound.owned.get bound (sound.owned.length_eq ▸ bound)
        exact owned.valid
      rw [List.getD_eq_getElem _ _ inside]
      exact short _ _ (accepted _ (List.getElem_mem inside)).name
    · rw [List.getD_eq_default _ _ (not_lt.mp inside)]
      exact Nat.zero_le _

/-- The fields of the header before its offsets. -/
def writeFormat (out : Bytes) (kind size generation : Nat) : Bytes :=
  let out := writeBytes out 0 magic
  let out := writeU16 out 4 1
  let out := writeU16 out 6 header_size
  let out := writeU16 out 8 1
  let out := writeU16 out 10 kind
  let out := writeU64 out 16 size
  writeU64 out 24 generation

/-- The offsets and sizes of tables and heaps. -/
def writeTables (out : Bytes) (start : Nat) (header : Header) : Bytes :=
  let out := writeU32 out start header.key_table_offset
  let out := writeU32 out (start + 4) header.key_count
  let out := writeU32 out (start + 8) header.value_table_offset
  let out := writeU32 out (start + 12) header.value_count
  let out := writeU32 out (start + 16) header.string_heap_offset
  let out := writeU32 out (start + 20) header.string_heap_size
  let out := writeU32 out (start + 24) header.data_heap_offset
  writeU32 out (start + 28) header.data_heap_size

theorem writeFormat_zeros (rest : Bytes) (kind size generation : Nat) :
    writeFormat (zeros 32 ++ rest) kind size generation =
      (magic ++ (u16Bytes 1 ++ (u16Bytes header_size ++ (u16Bytes 1 ++ (u16Bytes kind ++
        (u32Bytes 0 ++ (u64Bytes size ++ u64Bytes generation))))))) ++ rest :=
  rfl

theorem writeTables_zeros (front rest : Bytes) (header : Header) :
    writeTables (front ++ (zeros 32 ++ rest)) front.length header =
      front ++ ((u32Bytes header.key_table_offset ++ (u32Bytes header.key_count ++
        (u32Bytes header.value_table_offset ++ (u32Bytes header.value_count ++
          (u32Bytes header.string_heap_offset ++ (u32Bytes header.string_heap_size ++
            (u32Bytes header.data_heap_offset ++ u32Bytes header.data_heap_size))))))) ++
              rest) := by
  have moved (out : Bytes) (start : Nat) :
      writeTables (front ++ out) (front.length + start) header =
        front ++ writeTables out start header := by
    simp only [writeTables, writeU32, Nat.add_assoc, writeBytes_append]
  have written := moved (zeros 32 ++ rest) 0
  rw [Nat.add_zero] at written
  rw [written]
  rfl

/-- A layout that fills its buffer. -/
structure Full (plan : BuildPlan) (layout : Layout) : Prop where
  keys : layout.keys.length = plan.keys.length
  values : layout.values.length = plan.values.length
  strings : layout.strings.length = plan.string_heap_size
  data : layout.data.length = plan.data_heap_size

theorem Full.header {layout : Layout} (full : Full plan layout) {generation : UInt64}
    (same : layout.generation = generation.toNat) (rest : Bytes) :
    emitHeader plan layout.kind generation (zeros header_size ++ rest) =
      layout.headerBytes ++ rest := by
  have value_table : layout.value_table_offset = plan.value_table_offset := by
    rw [Layout.value_table_offset, full.keys, BuildPlan.value_table_offset]
  have string_heap : layout.string_heap_offset = plan.string_heap_offset := by
    rw [Layout.string_heap_offset, value_table, full.values, BuildPlan.string_heap_offset]
  have data_heap : layout.data_heap_offset = plan.data_heap_offset := by
    rw [Layout.data_heap_offset, string_heap, full.strings, BuildPlan.data_heap_offset]
  have size : layout.file_size = plan.file_size := by
    rw [Layout.file_size, data_heap, full.data, BuildPlan.file_size]
  have fields (out : Bytes) : emitHeader plan layout.kind generation out =
      writeTables (writeFormat out layout.kind.toInt layout.file_size layout.generation) 32
        layout.header := by
    simp only [Layout.header, same, value_table, string_heap, data_heap, size, full.keys,
      full.values, full.strings, full.data]
    rfl
  have parts : zeros header_size ++ rest = zeros 32 ++ (zeros 32 ++ (zeros 32 ++ rest)) := rfl
  rw [fields, parts, writeFormat_zeros]
  have tables := writeTables_zeros (magic ++ (u16Bytes 1 ++ (u16Bytes header_size ++ (u16Bytes 1 ++
    (u16Bytes layout.kind.toInt ++ (u32Bytes 0 ++ (u64Bytes layout.file_size ++
      u64Bytes layout.generation))))))) (zeros 32 ++ rest) layout.header
  refine Eq.trans tables ?_
  simp [Layout.headerBytes, Layout.headerFields, zeros]

theorem Full.buffer {layout : Layout} (full : Full plan layout) (tail : Bytes) :
    bufferOf plan tail layout = zeros header_size ++ (layout.keyTable ++ (layout.valueTable ++
      (layout.strings ++ (layout.data ++ tail)))) := by
  simp [bufferOf, full.keys, full.values, full.strings, full.data, zeros]

theorem encodeKeys_length (flat : List Nat) (layout : Layout) :
    (flat.foldl (encodeKey plan) layout).keys.length = layout.keys.length + flat.length := by
  induction flat generalizing layout with
  | nil => rfl
  | cons flat_i flat induction =>
    rw [List.foldl_cons, induction, encodeKey_length, List.length_cons]
    omega

variable (plan) in
theorem encodeValues_sizes (flat_i : Nat) (sources : List Nat) (layout : Layout) :
    (sources.foldl (encodeValue plan flat_i) layout).kind = layout.kind ∧
      (sources.foldl (encodeValue plan flat_i) layout).generation = layout.generation ∧
      (sources.foldl (encodeValue plan flat_i) layout).values.length =
        layout.values.length + sources.length ∧
      (sources.foldl (encodeValue plan flat_i) layout).strings.length =
        layout.strings.length + (sources.map (valueNameSize plan)).sum ∧
      (sources.foldl (encodeValue plan flat_i) layout).data.length =
        layout.data.length + (sources.map (valueDataSize plan)).sum := by
  induction sources generalizing layout with
  | nil => exact ⟨rfl, rfl, rfl, rfl, rfl⟩
  | cons source sources induction =>
    obtain ⟨kind, generation, values, strings, data⟩ :=
      induction (encodeValue plan flat_i layout source)
    rw [List.foldl_cons, kind, generation, values, strings, data]
    simp only [encodeValue, List.length_append, List.length_cons, List.length_nil,
      List.map_cons, List.sum_cons, valueNameSize, valueDataSize]
    refine ⟨trivial, trivial, ?_, ?_, ?_⟩
    all_goals omega

variable (plan) in
theorem encodeKeys_sizes (flat : List Nat) (layout : Layout) :
    (flat.foldl (encodeKey plan) layout).kind = layout.kind ∧
      (flat.foldl (encodeKey plan) layout).generation = layout.generation ∧
      (flat.foldl (encodeKey plan) layout).values.length =
        layout.values.length + (flat.map (keyValueSize plan)).sum ∧
      (flat.foldl (encodeKey plan) layout).strings.length =
        layout.strings.length + (flat.map (keyNameSize plan)).sum ∧
      (flat.foldl (encodeKey plan) layout).data.length =
        layout.data.length + (flat.map (keyDataSize plan)).sum := by
  induction flat generalizing layout with
  | nil => exact ⟨rfl, rfl, rfl, rfl, rfl⟩
  | cons flat_i flat induction =>
    obtain ⟨kind, generation, values, strings, data⟩ := induction (encodeKey plan layout flat_i)
    obtain ⟨own_kind, own_generation, own_values, own_strings, own_data⟩ :=
      encodeValues_sizes plan flat_i (plan.sources (plan.order.getD flat_i 0))
        (encodeKeyRecord plan layout (plan.order.getD flat_i 0))
    rw [List.foldl_cons, kind, generation, values, strings, data]
    unfold encodeKey
    dsimp only
    rw [own_kind, own_generation, own_values, own_strings, own_data]
    simp only [encodeKeyRecord, List.length_append, List.map_cons, List.sum_cons, keyValueSize,
      keyNameSize, keyDataSize]
    refine ⟨trivial, trivial, ?_, ?_, ?_⟩
    all_goals omega

theorem PlanSound.full (sound : PlanSound kind values plan) (generation : UInt64) :
    Full plan (encodePlan plan kind generation) ∧
      (encodePlan plan kind generation).kind = kind ∧
      (encodePlan plan kind generation).generation = generation.toNat := by
  obtain ⟨_, keys, counted, named, filled⟩ := sound.room generation.toNat
  rw [← List.range_eq_range'] at counted named filled
  unfold encodePlan
  obtain ⟨same_kind, same_generation, value_count, strings, data⟩ :=
    encodeKeys_sizes plan (List.range plan.order.length)
      { kind, generation := generation.toNat, keys := [], values := [], strings := [], data := [] }
  refine ⟨⟨?_, ?_, ?_, ?_⟩, same_kind, same_generation⟩
  · rw [encodeKeys_length, List.length_range, keys]
    exact Nat.zero_add _
  · rw [value_count, counted]
    exact Nat.zero_add _
  · rw [strings, named]
    exact Nat.zero_add _
  · rw [data, filled]
    exact Nat.zero_add _

theorem Full.file_size {layout : Layout} (full : Full plan layout) :
    layout.file_size = plan.file_size := by
  rw [Layout.file_size, Layout.data_heap_offset, Layout.string_heap_offset,
    Layout.value_table_offset, full.keys, full.values, full.strings, full.data,
    BuildPlan.file_size, BuildPlan.data_heap_offset, BuildPlan.string_heap_offset,
    BuildPlan.value_table_offset]

/-- Writing a plan yields the bytes of its layout, if there is room for them. -/
theorem PlanSound.emitPlan (sound : PlanSound kind values plan) (generation : UInt64) (out : Bytes) :
    Registry.emitPlan plan kind generation out =
      if 0xffffffff < plan.file_size then .error .TooManyEntries
      else if out.length < plan.file_size then .error .OutOfMemory
      else .ok (encodePlan plan kind generation).bytes := by
  unfold Registry.emitPlan reject
  split
  · rfl
  · split
    · rfl
    · next fits =>
        obtain ⟨room, keys, _⟩ := sound.room generation.toNat
        obtain ⟨full, same_kind, same_generation⟩ := sound.full generation
        obtain ⟨emitted, _⟩ := emitKeys_eq (out.drop plan.file_size) sound.shortNames
          plan.order.length room
        have start : emittedOf plan (out.drop plan.file_size)
            { kind, generation := generation.toNat, keys := [], values := [], strings := [],
              data := [] } =
            { out := List.replicate plan.file_size 0 ++ out.drop plan.file_size } := by
          have size : plan.file_size = header_size + (plan.keys.length * key_record_size +
              (plan.values.length * value_record_size +
                (plan.string_heap_size + plan.data_heap_size))) := by
            simp only [BuildPlan.file_size, BuildPlan.data_heap_offset,
              BuildPlan.string_heap_offset, BuildPlan.value_table_offset, Nat.add_assoc]
          simp only [emittedOf, bufferOf, Layout.keyTable, Layout.valueTable, List.flatMap_nil,
            List.nil_append, List.length_nil, Nat.sub_zero, zeros]
          congr 1
          simp only [← List.append_assoc, List.replicate_append_replicate]
          rw [size]
        rw [start, List.length_nil, ← List.range_eq_range'] at emitted
        change (do
          let emitted ← (List.range plan.order.length).foldlM (emitKey plan)
            { out := List.replicate plan.file_size 0 ++ out.drop plan.file_size }
          return (emitHeader plan kind generation emitted.out).take plan.file_size) = _
        rw [emitted]
        change Except.ok ((emitHeader plan kind generation
          (bufferOf plan (out.drop plan.file_size) (encodePlan plan kind generation))).take
            plan.file_size) = _
        have header := full.header same_generation
        rw [same_kind] at header
        rw [full.buffer, header, ← full.file_size, ← Layout.bytes_length]
        congr 1
        rw [Layout.bytes]
        simp only [← List.append_assoc]
        exact List.take_left

end Whole

end R4OS.Registry
