import R4OS.Registry.Emission

/-!
# The records of a plan

Every record of an encoded plan refers to its texts in the heaps, and the values of a key stand next
to each other.
-/

namespace R4OS.Registry

open Text Traversal

structure Stored (heap : Bytes) (offset : Nat) (text : Bytes) : Prop where
  inside : offset + text.length ≤ heap.length
  slice : sliceFromHeap heap offset text.length = text

theorem stored_end (heap text : Bytes) : Stored (heap ++ text) heap.length text := by
  constructor
  · rw [List.length_append]
  · unfold sliceFromHeap
    split
    · next empty => exact (List.length_eq_zero_iff.mp empty).symm
    · rw [List.drop_left, List.take_length]

theorem Stored.append {heap text : Bytes} {offset : Nat} (stored : Stored heap offset text)
    (more : Bytes) : Stored (heap ++ more) offset text := by
  have inside := stored.inside
  constructor
  · rw [List.length_append]
    omega
  · have slice := stored.slice
    unfold sliceFromHeap at slice ⊢
    split
    · next empty => rwa [if_pos empty] at slice
    · next some =>
        rw [if_neg some] at slice
        rw [List.drop_append_of_le_length (by omega), List.take_append_of_le_length _, slice]
        rw [List.length_drop]
        omega

/-- The record of a key whose first value has an index. -/
structure KeyStored (plan : BuildPlan) (strings : Bytes) (record : KeyRecord)
    (entry : Nat × Nat) : Prop where
  record_eq : record = keyRecordOf plan entry.1 record.name_offset entry.2
  name : Stored strings record.name_offset (keyOf plan.keys entry.1).name

/-- The record of a value of a key with a number. -/
structure ValueStored (plan : BuildPlan) (strings data : Bytes) (record : ValueRecord)
    (entry : Nat × Nat) : Prop where
  owner : record.owner_key_index = entry.1
  name_len : record.name_len = (plan.values.getD entry.2 default).name.length
  value_type : record.value_type = (plan.values.getD entry.2 default).value_type
  data_len : record.data_len = (plan.values.getD entry.2 default).data.length
  name : Stored strings record.name_offset (plan.values.getD entry.2 default).name
  data : Stored data record.data_offset (plan.values.getD entry.2 default).data

structure Encoded (plan : BuildPlan) (layout : Layout) (keys values : List (Nat × Nat)) : Prop where
  keys : List.Forall₂ (KeyStored plan layout.strings) layout.keys keys
  values : List.Forall₂ (ValueStored plan layout.strings layout.data) layout.values values

section Encode

variable {plan : BuildPlan} {layout : Layout} {keys values : List (Nat × Nat)}

section

variable (encoded : Encoded plan layout keys values)

include encoded

theorem Encoded.grow (strings data : Bytes) :
    Encoded plan { layout with strings := layout.strings ++ strings, data := layout.data ++ data }
      keys values := by
  constructor
  · exact encoded.keys.imp fun record entry stored =>
      ⟨stored.record_eq, stored.name.append strings⟩
  · exact encoded.values.imp fun record entry stored =>
      ⟨stored.owner, stored.name_len, stored.value_type, stored.data_len,
        stored.name.append strings, stored.data.append data⟩

theorem Encoded.value (flat_i source : Nat) :
    Encoded plan (encodeValue plan flat_i layout source) keys (values ++ [(flat_i, source)]) := by
  have grown := encoded.grow (plan.values.getD source default).name
    (plan.values.getD source default).data
  constructor
  · exact grown.keys
  · apply List.rel_append grown.values
    exact List.Forall₂.cons ⟨rfl, rfl, rfl, rfl, stored_end _ _, stored_end _ _⟩ List.Forall₂.nil

theorem Encoded.sources (flat_i : Nat) (sources : List Nat) :
    Encoded plan (sources.foldl (encodeValue plan flat_i) layout) keys
      (values ++ sources.map fun source => (flat_i, source)) := by
  induction sources generalizing layout values with
  | nil => rwa [List.map_nil, List.append_nil]
  | cons source sources induction =>
    rw [List.foldl_cons, List.map_cons, List.append_cons]
    exact induction (encoded.value flat_i source)

theorem Encoded.key (flat_i : Nat) :
    Encoded plan (encodeKey plan layout flat_i)
      (keys ++ [(plan.order.getD flat_i 0, values.length)])
      (values ++ (plan.sources (plan.order.getD flat_i 0)).map fun source => (flat_i, source)) := by
  apply Encoded.sources
  have grown := encoded.grow (keyOf plan.keys (plan.order.getD flat_i 0)).name []
  rw [List.append_nil] at grown
  constructor
  · apply List.rel_append grown.keys
    refine List.Forall₂.cons ⟨?_, stored_end _ _⟩ List.Forall₂.nil
    rw [← encoded.values.length_eq]
    rfl
  · exact grown.values

end

/-- The values of the first keys, each with the number of its key. -/
def valueEntries (plan : BuildPlan) (count : Nat) : List (Nat × Nat) :=
  (List.range count).flatMap fun flat_i =>
    (plan.sources (plan.order.getD flat_i 0)).map fun source => (flat_i, source)

/-- The first keys, each with the index of its first value. -/
def keyEntries (plan : BuildPlan) (count : Nat) : List (Nat × Nat) :=
  (List.range count).map fun flat_i =>
    (plan.order.getD flat_i 0, (valueEntries plan flat_i).length)

theorem valueEntries_succ (plan : BuildPlan) (count : Nat) : valueEntries plan (count + 1) =
    valueEntries plan count ++
      (plan.sources (plan.order.getD count 0)).map fun source => (count, source) := by
  rw [valueEntries, List.range_succ, List.flatMap_append, List.flatMap_singleton, valueEntries]

variable (plan) in
theorem encoded_range (kind : HiveKind) (generation count : Nat) :
    Encoded plan ((List.range count).foldl (encodeKey plan)
        { kind, generation, keys := [], values := [], strings := [], data := [] })
      (keyEntries plan count) (valueEntries plan count) := by
  induction count with
  | zero => exact ⟨List.Forall₂.nil, List.Forall₂.nil⟩
  | succ count induction =>
    rw [List.range_succ, List.foldl_append, List.foldl_cons, List.foldl_nil, valueEntries_succ,
      keyEntries, List.range_succ, List.map_append, List.map_singleton]
    exact induction.key count

theorem encodeKeys_head (flat : List Nat) (layout : Layout) (some : layout.keys ≠ []) :
    (flat.foldl (encodeKey plan) layout).keys.head? = layout.keys.head? := by
  induction flat generalizing layout with
  | nil => rfl
  | cons flat_i flat induction =>
    have keys : (encodeKey plan layout flat_i).keys = layout.keys ++
        [keyRecordOf plan (plan.order.getD flat_i 0) layout.strings.length
          layout.values.length] := encodeValues_keys _ _ _
    rw [List.foldl_cons, induction _ (by rw [keys]; simp), keys,
      List.head?_append_of_ne_nil _ some]

end Encode

section Positions

variable {plan : BuildPlan} {count flat_i offset : Nat}

variable (plan) in
theorem valueEntries_leads {few many : Nat} (fewer : few ≤ many) :
    valueEntries plan few <+: valueEntries plan many := by
  induction many, fewer using Nat.le_induction with
  | base => exact List.prefix_refl _
  | succ many _ induction =>
    rw [valueEntries_succ]
    exact induction.trans (List.prefix_append _ _)

theorem valueEntries_at (before : flat_i < count)
    (inside : offset < (plan.sources (plan.order.getD flat_i 0)).length) :
    (valueEntries plan count)[(valueEntries plan flat_i).length + offset]? =
      some (flat_i, (plan.sources (plan.order.getD flat_i 0))[offset]) := by
  obtain ⟨rest, split⟩ := valueEntries_leads plan (show flat_i + 1 ≤ count from before)
  rw [← split, valueEntries_succ, List.append_assoc,
    List.getElem?_append_right (Nat.le_add_right _ _), Nat.add_sub_cancel_left,
    List.getElem?_append_left (by rwa [List.length_map]), List.getElem?_map,
    List.getElem?_eq_getElem inside]
  rfl

theorem exists_valueEntries_position {position : Nat}
    (inside : position < (valueEntries plan count).length) :
    ∃ flat_i < count, ∃ offset < (plan.sources (plan.order.getD flat_i 0)).length,
      position = (valueEntries plan flat_i).length + offset := by
  induction count with
  | zero => cases inside
  | succ count induction =>
    by_cases earlier : position < (valueEntries plan count).length
    · obtain ⟨flat_i, before, rest⟩ := induction earlier
      exact ⟨flat_i, Nat.lt_succ_of_lt before, rest⟩
    · rw [valueEntries_succ, List.length_append, List.length_map] at inside
      exact ⟨count, Nat.lt_succ_self count, position - (valueEntries plan count).length,
        by omega, by omega⟩

end Positions

end R4OS.Registry
