import R4OS.Registry.Hive

/-!
# What hive validation accepts

The checks of the parser as properties of an accepted hive.  Names are told apart by hashing, and the
hash tables of the parser decide exactly whether two names of a range agree up to ASCII case.
-/

namespace R4OS.Registry

open Hashing Text
open R4OS.Path (isSeparator)

variable {first count index : Nat} {view : HiveView}

section Checks

variable {Result Next : Type} {error : Error}

theorem bind_eq_ok {first : Except Error Result} {rest : Result → Except Error Next} {next : Next} :
    (first >>= rest) = .ok next ↔ ∃ result, first = .ok result ∧ rest result = .ok next := by
  cases first with
  | error error =>
    constructor
    · rintro ⟨⟩
    · rintro ⟨_, ⟨⟩, _⟩
  | ok result =>
    constructor
    · intro finished
      exact ⟨result, rfl, finished⟩
    · rintro ⟨_, ⟨⟩, finished⟩
      exact finished

theorem unit_bind_eq_ok {first : Except Error Unit} {rest : Unit → Except Error Next} {next : Next} :
    (first >>= rest) = .ok next ↔ first = .ok () ∧ rest () = .ok next := by
  rw [bind_eq_ok]
  constructor
  · rintro ⟨⟨⟩, passed, finished⟩
    exact ⟨passed, finished⟩
  · rintro ⟨passed, finished⟩
    exact ⟨(), passed, finished⟩

theorem reject_eq_ok {condition : Prop} [Decidable condition] :
    reject condition error = .ok () ↔ ¬ condition := by
  unfold reject
  split <;> simp_all

theorem forM_eq_ok {Item : Type} {items : List Item} {check : Item → Except Error Unit} :
    items.forM check = .ok () ↔ ∀ item ∈ items, check item = .ok () := by
  induction items with
  | nil => simp [pure, Except.pure]
  | cons item items induction =>
    change (check item >>= fun _ => items.forM check) = .ok () ↔ _
    rw [unit_bind_eq_ok, List.forall_mem_cons]
    exact and_congr_right fun _ => induction

end Checks

theorem byteRange_eq_ok {bytes slice : Bytes} {offset size : Nat} :
    byteRange bytes offset size = .ok slice ↔
      (size = 0 → offset = 0 ∨ offset ≤ bytes.length) ∧ (size ≠ 0 → offset + size ≤ bytes.length) ∧
        slice = sliceFromHeap bytes offset size := by
  unfold byteRange sliceFromHeap
  split
  · next empty =>
      subst empty
      split
      · next zero => simp [zero, eq_comm]
      · next nonzero =>
          split
          · next outside => simp [nonzero, outside]
          · next inside => simp [nonzero, not_lt.mp inside, eq_comm]
  · next nonempty =>
      split
      · next outside =>
          simp only [reduceCtorEq, false_iff, nonempty]
          rintro ⟨_, fits, _⟩
          have := fits nonempty
          omega
      · next inside =>
          have fits : offset + size ≤ bytes.length := by omega
          simp [nonempty, fits, eq_comm]

/-- An index range of a table is empty or lies inside of it. -/
def RangeInside (first count total : Nat) : Prop :=
  (count = 0 ∧ first = invalid_index) ∨
    (0 < count ∧ first ≠ invalid_index ∧ first + count ≤ total)

theorem validateIndexRange_eq_ok {total : Nat} :
    validateIndexRange first count total = .ok () ↔ RangeInside first count total := by
  unfold validateIndexRange RangeInside
  split
  · next empty => simp [reject_eq_ok, empty]
  · next nonempty =>
      rw [unit_bind_eq_ok, reject_eq_ok, reject_eq_ok]
      omega

theorem indexInRange_iff :
    indexInRange first count index = true ↔
      first ≠ invalid_index ∧ first ≤ index ∧ index < first + count := by
  simp only [indexInRange, Bool.and_eq_true, Bool.not_eq_true', Bool.or_eq_false_iff,
    decide_eq_false_iff_not, decide_eq_true_eq]
  omega

theorem growing_pow (count : Nat) (steps : List Nat) :
    ∃ bits, (steps.foldl
        (fun capacity _ => if capacity < count * 2 then capacity * 2 else capacity) 2) = 2 ^ bits ∧
      (count * 2 ≤ 2 ^ bits ∨ bits = steps.length + 1) := by
  induction steps using List.reverseRecOn with
  | nil => exact ⟨1, rfl, .inr rfl⟩
  | append_singleton steps step induction =>
    obtain ⟨bits, capacity, enough⟩ := induction
    rw [List.foldl_append, capacity]
    by_cases small : 2 ^ bits < count * 2
    · refine ⟨bits + 1, ?_, .inr ?_⟩
      · simp [small, pow_succ]
      · rw [enough.resolve_left (by omega), List.length_append]
        rfl
    · exact ⟨bits, by simp [small], .inl (by omega)⟩

theorem bucketCount_pow (small : count ≤ 512) :
    ∃ bits, bucketCount count = 2 ^ bits ∧ count * 2 ≤ 2 ^ bits := by
  obtain ⟨bits, capacity, enough⟩ := growing_pow count (List.range 32)
  refine ⟨bits, capacity, ?_⟩
  rcases enough with enough | full
  · exact enough
  · rw [full, List.length_range]
    omega

theorem asciiEqlIgnoreCase_iff {a b : Bytes} :
    asciiEqlIgnoreCase a b = true ↔ a.map toUpper = b.map toUpper := by
  simp [asciiEqlIgnoreCase]

@[simp] theorem asciiEqlIgnoreCase_self (name : Bytes) : asciiEqlIgnoreCase name name = true := by
  simp [asciiEqlIgnoreCase]

theorem nameHash_congr {owner : Nat} {a b : Bytes} (same : asciiEqlIgnoreCase a b = true) :
    nameHash owner a = nameHash owner b := by
  have folded (name : Bytes) (start : UInt32) :
      name.foldl (fun hash ch => (hash ^^^ (toUpper ch).toUInt32) * 16777619) start =
        (name.map toUpper).foldl (fun hash ch => (hash ^^^ ch.toUInt32) * 16777619) start := by
    rw [List.foldl_map]
  unfold nameHash
  dsimp only
  rw [folded a, folded b, asciiEqlIgnoreCase_iff.mp same]

/-- Hashed or not, exactly the ranges without a match pass. -/
theorem rangeDistinct_iff {hash : Nat → UInt32} {same : Nat → Nat → Bool}
    (homes : ∀ prior index, same prior index = true → hash prior = hash index) :
    rangeDistinct count hash same = true ↔
      ∀ index < count, ∀ prior < index, same prior index = false := by
  unfold rangeDistinct
  split
  · next small =>
      obtain ⟨bits, capacity, room⟩ := bucketCount_pow small
      rw [capacity, allDistinct_iff (by rw [List.length_range]; omega)]
      · rw [List.pairwise_iff_getElem]
        simp only [List.length_range, List.getElem_range]
        constructor
        · intro distinct index inside prior before
          exact distinct prior index (by omega) inside before
        · intro distinct prior index _ inside before
          exact distinct index inside prior before
      · intro prior _ index _ matching
        rw [homes prior index matching]
  · next large => simp [List.all_eq_true]

/-- The names of a range differ up to ASCII case. -/
def NamesDistinct (name : Nat → Bytes) (first count : Nat) : Prop :=
  ∀ index < count, ∀ prior < index,
    asciiEqlIgnoreCase (name (first + prior)) (name (first + index)) = false

theorem validateNameRange_eq_ok {name : Nat → Bytes} {duplicate : Error} :
    validateNameRange name first count duplicate = .ok () ↔ NamesDistinct name first count := by
  unfold validateNameRange NamesDistinct
  split
  · next few =>
      simp only [true_iff]
      intro index inside prior before
      omega
  · have distinct : rangeDistinct count (fun index => nameHash 0 (name (first + index)))
        (fun prior index => asciiEqlIgnoreCase (name (first + prior)) (name (first + index))) =
          true ↔ NamesDistinct name first count :=
      rangeDistinct_iff fun prior index => nameHash_congr
    rw [reject_eq_ok, ← NamesDistinct, ← distinct]
    simp

def NameSliceValid (heap : Bytes) (offset len : Nat) (allow_empty : Bool) : Prop :=
  (len = 0 → allow_empty = true ∨ offset = 0) ∧
    (len ≠ 0 → offset + len ≤ heap.length ∧
      validName (sliceFromHeap heap offset len) allow_empty = true)

theorem validateNameSlice_eq_ok {heap : Bytes} {offset len : Nat} {allow_empty : Bool} :
    validateNameSlice heap offset len allow_empty = .ok () ↔
      NameSliceValid heap offset len allow_empty := by
  unfold validateNameSlice NameSliceValid
  split
  · next empty =>
      rw [reject_eq_ok]
      cases allow_empty <;> simp [empty]
  · next nonempty =>
      have checked (name : Bytes) :
          (if allow_empty = true then reject (!validValueName name) Error.BadName
            else reject (!validKeyName name) Error.BadName) = .ok () ↔
              validName name allow_empty = true := by
        cases allow_empty <;> simp [reject_eq_ok, validValueName, validKeyName]
      rw [bind_eq_ok]
      simp only [byteRange_eq_ok, checked]
      constructor
      · rintro ⟨name, ⟨_, fits, rfl⟩, valid⟩
        exact ⟨fun empty => absurd empty nonempty, fun _ => ⟨fits nonempty, valid⟩⟩
      · rintro ⟨_, valid⟩
        obtain ⟨fits, valid⟩ := valid nonempty
        exact ⟨_, ⟨fun empty => absurd empty nonempty, fun _ => fits, rfl⟩, valid⟩

/-- A key that passes its checks. -/
structure KeyValid (view : HiveView) (index : Nat) : Prop where
  reserved : validateKeyReserved view index = .ok ()
  parent : (view.keyAt index).parent_index ≠ invalid_index →
    (view.keyAt index).parent_index < view.header.key_count
  listed : index ≠ 0 → (view.keyAt index).parent_index ≠ invalid_index ∧
    keyListedByParent view index (view.keyAt index).parent_index = true
  name : index ≠ 0 →
    NameSliceValid view.string_heap (view.keyAt index).name_offset (view.keyAt index).name_len false
  children : RangeInside (view.keyAt index).first_child_index (view.keyAt index).child_count
    view.header.key_count
  values : RangeInside (view.keyAt index).first_value_index (view.keyAt index).value_count
    view.header.value_count
  child_parent : ∀ offset < (view.keyAt index).child_count,
    (view.keyAt ((view.keyAt index).first_child_index + offset)).parent_index = index
  value_owner : ∀ offset < (view.keyAt index).value_count,
    (view.valueAt ((view.keyAt index).first_value_index + offset)).owner_key_index = index

theorem forM_range'_eq_ok {check : Nat → Except Error Unit} :
    (List.range' first count).forM check = .ok () ↔
      ∀ offset < count, check (first + offset) = .ok () := by
  rw [forM_eq_ok]
  simp only [List.mem_range'_1]
  constructor
  · intro passed offset inside
    exact passed _ ⟨by omega, by omega⟩
  · rintro passed index ⟨after, before⟩
    have := passed (index - first) (by omega)
    rwa [show first + (index - first) = index by omega] at this

theorem validateChildName_eq_ok :
    validateChildName view index = .ok () ↔ (index ≠ 0 →
      NameSliceValid view.string_heap (view.keyAt index).name_offset (view.keyAt index).name_len
        false) := by
  unfold validateChildName
  split
  · next child => simp [validateNameSlice_eq_ok, child]
  · next root => simp [root]

theorem validateKey_eq_ok :
    validateKey view index = .ok () ↔ KeyValid view index := by
  unfold validateKey
  simp only [unit_bind_eq_ok, reject_eq_ok, forM_range'_eq_ok, validateIndexRange_eq_ok,
    validateChildName_eq_ok, not_and, not_not, not_le, Bool.not_eq_true', Bool.not_eq_false]
  constructor
  · rintro ⟨reserved, parent, nonroot, listed, name, children, values, child_parent, value_owner⟩
    exact ⟨reserved, parent, fun child => ⟨nonroot child, listed child⟩, name, children, values,
      child_parent, value_owner⟩
  · intro valid
    exact ⟨valid.reserved, valid.parent, fun child => (valid.listed child).1,
      fun child => (valid.listed child).2, valid.name, valid.children, valid.values,
      valid.child_parent, valid.value_owner⟩

/-- A value that passes its checks. -/
structure ValueValid (view : HiveView) (index : Nat) : Prop where
  reserved : validateValueReservedAndType view index = .ok ()
  owner : (view.valueAt index).owner_key_index < view.header.key_count
  listed : valueListedByOwner view index (view.valueAt index).owner_key_index = true
  name : NameSliceValid view.string_heap (view.valueAt index).name_offset
    (view.valueAt index).name_len true
  data : byteRange view.data_heap (view.valueAt index).data_offset (view.valueAt index).data_len =
    .ok (view.valueData (view.valueAt index))
  payload : validateValuePayload (view.valueAt index).value_type
    (view.valueData (view.valueAt index)) = .ok ()

theorem validateValue_eq_ok :
    validateValue view index = .ok () ↔ ValueValid view index := by
  unfold validateValue
  simp only [unit_bind_eq_ok, reject_eq_ok, validateNameSlice_eq_ok, not_le, Bool.not_eq_true',
    Bool.not_eq_false]
  simp only [bind_eq_ok]
  constructor
  · rintro ⟨reserved, owner, listed, name, data, sliced, payload⟩
    have same : data = view.valueData (view.valueAt index) := (byteRange_eq_ok.mp sliced).2.2
    subst same
    exact ⟨reserved, owner, listed, name, sliced, payload⟩
  · intro valid
    exact ⟨valid.reserved, valid.owner, valid.listed, valid.name, _, valid.data, valid.payload⟩

/-- A hive that passes its checks. -/
structure Valid (view : HiveView) : Prop where
  root : (view.keyAt 0).parent_index = invalid_index ∧ (view.keyAt 0).name_len = 0 ∧
    (view.keyAt 0).name_offset = 0
  keys : ∀ index < view.header.key_count, KeyValid view index
  values : ∀ index < view.header.value_count, ValueValid view index
  distinct_keys : ∀ parent < view.header.key_count,
    NamesDistinct (fun index => view.keyName (view.keyAt index))
      (view.keyAt parent).first_child_index (view.keyAt parent).child_count
  distinct_values : ∀ owner < view.header.key_count,
    NamesDistinct (fun index => view.valueName (view.valueAt index))
      (view.keyAt owner).first_value_index (view.keyAt owner).value_count

theorem validate_eq_ok : validate view = .ok () ↔ Valid view := by
  unfold validate validateDuplicateKeys validateDuplicateValues
  simp only [unit_bind_eq_ok, reject_eq_ok, forM_eq_ok, List.mem_range, validateKey_eq_ok,
    validateValue_eq_ok, validateNameRange_eq_ok, not_or, not_not]
  constructor
  · rintro ⟨root, keys, values, distinct_keys, distinct_values⟩
    exact ⟨root, keys, values, distinct_keys, distinct_values⟩
  · intro valid
    exact ⟨valid.root, valid.keys, valid.values, valid.distinct_keys, valid.distinct_values⟩

theorem parseHive_valid {bytes : Bytes} (parsed : parseHive bytes = .ok view) :
    Valid view ∧ 0 < view.header.key_count := by
  unfold parseHive at parsed
  obtain ⟨header, _, parsed⟩ := bind_eq_ok.mp parsed
  obtain ⟨nonempty, parsed⟩ := unit_bind_eq_ok.mp parsed
  obtain ⟨key_table, _, parsed⟩ := bind_eq_ok.mp parsed
  obtain ⟨value_table, _, parsed⟩ := bind_eq_ok.mp parsed
  obtain ⟨string_heap, _, parsed⟩ := bind_eq_ok.mp parsed
  obtain ⟨data_heap, _, parsed⟩ := bind_eq_ok.mp parsed
  obtain ⟨checked, finished⟩ := unit_bind_eq_ok.mp parsed
  cases finished
  exact ⟨validate_eq_ok.mp checked, Nat.pos_of_ne_zero (reject_eq_ok.mp nonempty)⟩

end R4OS.Registry
