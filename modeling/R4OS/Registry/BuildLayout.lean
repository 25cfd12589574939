import R4OS.Registry.BuildRecords

/-!
# Built hives are valid

The layout of a plan passes all checks of the parser.  Children and values of a key are the ranges
that its record names, and each child and value names its key.
-/

namespace R4OS.Registry

open Text Traversal

variable {kind : HiveKind} {values : List BuildValue} {plan : BuildPlan}

section Numbers

section

variable (sound : PlanSound kind values plan)

include sound

theorem PlanSound.position {index : Nat} (inside : index < plan.keys.length) :
    ∃ bound : (keyOf plan.keys index).flat_index < plan.order.length,
      plan.order[(keyOf plan.keys index).flat_index] = index := by
  obtain ⟨position, bound, same⟩ :=
    List.getElem_of_mem (sound.keys.mem_order sound.level index inside)
  have number := sound.number position bound
  rw [same] at number
  refine ⟨by rwa [number], ?_⟩
  simp [number, same]

theorem PlanSound.order_length :
    plan.order.length = plan.keys.length := by
  rw [(sound.keys.order_perm sound.level).length_eq, List.length_range]

theorem PlanSound.order_inside {position : Nat}
    (bound : position < plan.order.length) : plan.order[position] < plan.keys.length :=
  sound.keys.order_lt sound.level _ (List.getElem_mem bound)

theorem PlanSound.order_zero :
    ∃ bound : 0 < plan.order.length, plan.order[0] = 0 := by
  have bound : 0 < plan.order.length := by
    rw [sound.order_length]
    exact sound.keys.nonempty
  refine ⟨bound, ?_⟩
  have unfolded := sound.level.unfold
  rw [List.getElem_of_eq unfolded]
  rfl

end

/-- Where the children of a key start. -/
def childStart (plan : BuildPlan) (position : Nat) : Nat :=
  ((plan.order.take position).flatMap (childrenOf plan.keys)).length + 1

variable (sound : PlanSound kind values plan)

include sound

theorem PlanSound.child_at {position offset : Nat} (bound : position < plan.order.length)
    (within : offset < (childrenOf plan.keys plan.order[position]).length) :
    ∃ inside : childStart plan position + offset < plan.order.length,
      plan.order[childStart plan position + offset] =
        (childrenOf plan.keys plan.order[position])[offset] :=
  List.getElem?_eq_some_iff.mp (sound.level.child_at bound within)

theorem PlanSound.first_child (short : plan.keys.length ≤ invalid_index) {position : Nat}
    (bound : position < plan.order.length) :
    plan.flatOf (keyOf plan.keys plan.order[position]).first_child =
      if childrenOf plan.keys plan.order[position] = [] then invalid_index
      else childStart plan position := by
  have linked := sound.keys.links short _ (sound.order_inside bound)
  have chain := linked.chain
  cases children : childrenOf plan.keys plan.order[position] with
  | nil =>
    rw [children] at chain
    have none : (keyOf plan.keys plan.order[position]).first_child = invalid_index := chain
    rw [BuildPlan.flatOf, if_pos none, if_pos rfl]
  | cons child rest =>
    rw [children] at chain
    obtain ⟨first, _⟩ := chain
    have within : 0 < (childrenOf plan.keys plan.order[position]).length := by simp [children]
    obtain ⟨inside, same⟩ := sound.child_at bound within
    have number := sound.number _ inside
    rw [same] at number
    simp only [children, List.getElem_cons_zero, Nat.add_zero] at number
    have held : child < plan.keys.length :=
      (mem_childrenOf.mp (children ▸ List.mem_cons_self)).2.1
    rw [BuildPlan.flatOf, first, if_neg (by omega), number, if_neg (List.cons_ne_nil _ _)]

theorem PlanSound.parent_position
    (short : plan.keys.length ≤ invalid_index) {index : Nat} (inside : index < plan.keys.length)
    (other : index ≠ 0) :
    plan.flatOf (keyOf plan.keys index).parent =
        (keyOf plan.keys (keyOf plan.keys index).parent).flat_index ∧
      (keyOf plan.keys index).parent < plan.keys.length := by
  have before := sound.keys.parents index inside other
  constructor
  · rw [BuildPlan.flatOf, if_neg (by omega)]
  · omega

end Numbers

theorem PlanSound.sources_lt (sound : PlanSound kind values plan) {owner near far : Nat} (held : owner < plan.keys.length)
    (inside : far < (plan.sources owner).length) (before : near < far) :
    (plan.sources owner)[near] < (plan.sources owner)[far] := by
  have sorted : (plan.sources owner).Pairwise (· < ·) := by
    rw [sound.sources owner held]
    exact List.pairwise_lt_range.filter _
  exact List.pairwise_iff_getElem.mp sorted near far _ inside before

section Records

theorem encodePlan_key (kind : HiveKind) (generation : UInt64) {position : Nat} (bound : position < plan.order.length) :
    ∃ inside : position < (encodePlan plan kind generation).keys.length,
      KeyStored plan (encodePlan plan kind generation).strings
        (encodePlan plan kind generation).keys[position]
        (plan.order[position], (valueEntries plan position).length) := by
  have encoded := encoded_range plan kind generation.toNat plan.order.length
  have entry : position < (keyEntries plan plan.order.length).length := by
    simpa [keyEntries] using bound
  have inside : position < (encodePlan plan kind generation).keys.length := by
    rw [encodePlan, encoded.keys.length_eq]
    exact entry
  have stored := encoded.keys.get inside entry
  refine ⟨inside, ?_⟩
  have same : (keyEntries plan plan.order.length).get ⟨position, entry⟩ =
      (plan.order[position], (valueEntries plan position).length) := by
    rw [List.get_eq_getElem]
    simp [keyEntries, List.getElem?_eq_getElem bound]
  rw [same] at stored
  exact stored

theorem encodePlan_value (kind : HiveKind) (generation : UInt64) {position : Nat} {entry : Nat × Nat}
    (found : (valueEntries plan plan.order.length)[position]? = some entry) :
    ∃ inside : position < (encodePlan plan kind generation).values.length,
      ValueStored plan (encodePlan plan kind generation).strings
        (encodePlan plan kind generation).data
        (encodePlan plan kind generation).values[position] entry := by
  have encoded := encoded_range plan kind generation.toNat plan.order.length
  obtain ⟨bound, same⟩ := List.getElem?_eq_some_iff.mp found
  have inside : position < (encodePlan plan kind generation).values.length := by
    rw [encodePlan, encoded.values.length_eq]
    exact bound
  have stored := encoded.values.get inside bound
  rw [List.get_eq_getElem, List.get_eq_getElem, same] at stored
  exact ⟨inside, stored⟩

variable (sound : PlanSound kind values plan)

include sound

theorem PlanSound.valueEntries_length :
    (valueEntries plan plan.order.length).length = values.length := by
  have encoded := encoded_range plan kind (0 : UInt64).toNat plan.order.length
  obtain ⟨full, _⟩ := sound.full 0
  have lengths := encoded.values.length_eq
  rw [← sound.values_eq, ← full.values, encodePlan]
  exact lengths.symm

theorem PlanSound.values_range {position : Nat} (bound : position < plan.order.length) :
    (valueEntries plan position).length + (plan.sources plan.order[position]).length ≤
        values.length ∧
      (plan.sources plan.order[position]).length =
        (keyOf plan.keys plan.order[position]).value_count := by
  constructor
  · have leads := (valueEntries_leads plan (show position + 1 ≤ plan.order.length
      from bound)).length_le
    rw [valueEntries_succ, List.length_append, List.length_map, List.getD_eq_getElem _ _ bound,
      sound.valueEntries_length] at leads
    exact leads
  · rw [sound.sources _ (sound.order_inside bound), length_ownedValues, sound.counts]

theorem PlanSound.fits (generation : UInt64) (size : plan.file_size ≤ 0xffffffff) :
    (encodePlan plan kind generation).Fits := by
  obtain ⟨full, _, same_generation⟩ := sound.full generation
  have short_names := sound.shortNames
  have parts := full.file_size
  simp only [Layout.file_size, Layout.data_heap_offset, Layout.string_heap_offset,
    Layout.value_table_offset, header_size, key_record_size, value_record_size] at parts
  have key_count := full.keys
  have value_count := full.values
  rw [sound.values_eq] at value_count
  have order_length := sound.order_length
  have short : plan.keys.length ≤ invalid_index := by
    unfold invalid_index
    omega
  have invalid_lt : invalid_index < 2 ^ 32 := by decide
  constructor
  · intro record member
    obtain ⟨position, inside, rfl⟩ := List.getElem_of_mem member
    have bound : position < plan.order.length := by omega
    obtain ⟨_, stored⟩ := encodePlan_key kind generation bound
    obtain ⟨range, counted⟩ := sound.values_range bound
    have heap := stored.name.inside
    have name := short_names.keys plan.order[position]
    have held := sound.order_inside bound
    have linked := sound.keys.links short _ held
    have children : (childrenOf plan.keys plan.order[position]).length ≤ plan.keys.length := by
      refine (List.length_filter_le _ _).trans ?_
      rw [List.length_range']
      omega
    rw [stored.record_eq]
    unfold keyRecordOf
    constructor
    all_goals dsimp only
    · by_cases root : plan.order[position] = 0
      · rw [root, sound.keys.root_parent, BuildPlan.flatOf, if_pos rfl]
        exact invalid_lt
      · obtain ⟨flat, parent⟩ := sound.parent_position short held root
        obtain ⟨flat_lt, _⟩ := sound.position parent
        rw [flat]
        omega
    · omega
    · omega
    · split
      · exact invalid_lt
      · omega
    · omega
    · rw [sound.first_child short bound]
      split
      · exact invalid_lt
      · next some =>
          obtain ⟨child_lt, _⟩ := sound.child_at bound (List.length_pos_iff.mpr some)
          omega
    · rw [linked.count]
      omega
  · intro record member
    obtain ⟨position, inside, rfl⟩ := List.getElem_of_mem member
    have bound : position < (valueEntries plan plan.order.length).length := by
      rw [sound.valueEntries_length]
      omega
    have found := List.getElem?_eq_getElem bound
    obtain ⟨_, stored⟩ := encodePlan_value kind generation found
    obtain ⟨flat_i, before, offset, within, place⟩ := exists_valueEntries_position bound
    have entry := valueEntries_at before within
    rw [← place, found] at entry
    have owner := congrArg Prod.fst (Option.some.inj entry)
    dsimp only at owner
    have heap := stored.name.inside
    have data := stored.data.inside
    have name := short_names.values (valueEntries plan plan.order.length)[position].2
    rw [valueNameSize] at name
    constructor
    · rw [stored.owner]
      omega
    · omega
    · rw [stored.name_len]
      omega
    · omega
    · rw [stored.data_len]
      omega
  · intro empty
    have := sound.keys.nonempty
    rw [empty, List.length_nil] at key_count
    omega
  · rw [same_generation]
    exact generation.toNat_lt
  · rw [full.file_size]
    omega

end Records

def builtView (plan : BuildPlan) (kind : HiveKind) (generation : UInt64) : HiveView :=
  (encodePlan plan kind generation).view

theorem BuildPlan.short (size : plan.file_size ≤ 0xffffffff) :
    plan.keys.length ≤ invalid_index := by
  have parts := size
  simp only [BuildPlan.file_size, BuildPlan.data_heap_offset, BuildPlan.string_heap_offset,
    BuildPlan.value_table_offset, header_size, key_record_size] at parts
  unfold invalid_index
  omega

variable {position : Nat}

theorem BuildPlan.source_at {offset : Nat} (bound : position < plan.order.length)
    (within : offset < (plan.sources plan.order[position]).length) :
    (valueEntries plan plan.order.length)[(valueEntries plan position).length + offset]? =
      some (position, (plan.sources plan.order[position])[offset]) := by
  have same : plan.order.getD position 0 = plan.order[position] := List.getD_eq_getElem _ _ bound
  have entry := valueEntries_at bound (show offset < _ by rwa [same])
  simpa only [same] using entry

theorem encodePlan_head (kind : HiveKind) (generation : UInt64) (zero : 0 < plan.order.length) :
    (encodePlan plan kind generation).keys.head? =
      some (keyRecordOf plan (plan.order.getD 0 0) 0 0) := by
  have range : List.range plan.order.length = 0 :: List.range' 1 (plan.order.length - 1) := by
    have first := @List.range'_succ 0 (plan.order.length - 1) 1
    rwa [Nat.sub_add_cancel zero, ← List.range_eq_range'] at first
  unfold encodePlan
  rw [range, List.foldl_cons, encodeKeys_head, encodeKey, encodeValues_keys]
  · rfl
  · rw [encodeKey, encodeValues_keys]
    exact List.cons_ne_nil _ _

section View

variable (generation : UInt64) (sound : PlanSound kind values plan)
  (size : plan.file_size ≤ 0xffffffff)

include sound

theorem PlanSound.key_count :
    (builtView plan kind generation).header.key_count = plan.order.length := by
  rw [sound.order_length]
  exact (sound.full generation).1.keys

theorem PlanSound.value_count :
    (builtView plan kind generation).header.value_count = values.length := by
  rw [← sound.values_eq]
  exact (sound.full generation).1.values

include size

theorem PlanSound.keyAt {position : Nat} (bound : position < plan.order.length) :
    KeyStored plan (builtView plan kind generation).string_heap
      ((builtView plan kind generation).keyAt position)
      (plan.order[position], (valueEntries plan position).length) := by
  obtain ⟨inside, stored⟩ := encodePlan_key kind generation bound
  rw [builtView, Layout.keyAt_view (sound.fits generation size) inside]
  exact stored

theorem PlanSound.valueAt {position : Nat} {entry : Nat × Nat}
    (found : (valueEntries plan plan.order.length)[position]? = some entry) :
    ValueStored plan (builtView plan kind generation).string_heap
      (builtView plan kind generation).data_heap
      ((builtView plan kind generation).valueAt position) entry := by
  obtain ⟨inside, stored⟩ := encodePlan_value kind generation found
  rw [builtView, Layout.valueAt_view (sound.fits generation size) inside]
  exact stored

theorem PlanSound.keyName {position : Nat} (bound : position < plan.order.length) :
    (builtView plan kind generation).keyName ((builtView plan kind generation).keyAt position) =
      (keyOf plan.keys plan.order[position]).name := by
  have stored := sound.keyAt generation size bound
  have len : ((builtView plan kind generation).keyAt position).name_len =
      (keyOf plan.keys plan.order[position]).name.length :=
    congrArg KeyRecord.name_len stored.record_eq
  rw [HiveView.keyName, len]
  exact stored.name.slice

theorem PlanSound.valueName {position : Nat} {entry : Nat × Nat}
    (found : (valueEntries plan plan.order.length)[position]? = some entry) :
    (builtView plan kind generation).valueName
        ((builtView plan kind generation).valueAt position) =
      (plan.values.getD entry.2 default).name := by
  have stored := sound.valueAt generation size found
  rw [HiveView.valueName, stored.name_len]
  exact stored.name.slice

theorem PlanSound.valueData {position : Nat} {entry : Nat × Nat}
    (found : (valueEntries plan plan.order.length)[position]? = some entry) :
    (builtView plan kind generation).valueData
        ((builtView plan kind generation).valueAt position) =
      (plan.values.getD entry.2 default).data := by
  have stored := sound.valueAt generation size found
  rw [HiveView.valueData, stored.data_len]
  exact stored.data.slice

theorem PlanSound.child_count {position : Nat} (bound : position < plan.order.length) :
    ((builtView plan kind generation).keyAt position).child_count =
      (childrenOf plan.keys plan.order[position]).length := by
  have stored := sound.keyAt generation size bound
  have linked := sound.keys.links (BuildPlan.short size) _ (sound.order_inside bound)
  rw [← linked.count]
  exact congrArg KeyRecord.child_count stored.record_eq

theorem PlanSound.first_child_index {position : Nat} (bound : position < plan.order.length)
    (some : childrenOf plan.keys plan.order[position] ≠ []) :
    ((builtView plan kind generation).keyAt position).first_child_index =
      childStart plan position := by
  have stored := sound.keyAt generation size bound
  have first := sound.first_child (BuildPlan.short size) bound
  rw [if_neg some] at first
  rw [← first]
  exact congrArg KeyRecord.first_child_index stored.record_eq

theorem PlanSound.value_range {position : Nat} (bound : position < plan.order.length) :
    ((builtView plan kind generation).keyAt position).value_count =
        (plan.sources plan.order[position]).length ∧
      ((builtView plan kind generation).keyAt position).first_value_index =
        if (plan.sources plan.order[position]).length = 0 then invalid_index
        else (valueEntries plan position).length := by
  have stored := sound.keyAt generation size bound
  rw [(sound.values_range bound).2]
  exact ⟨congrArg KeyRecord.value_count stored.record_eq,
    congrArg KeyRecord.first_value_index stored.record_eq⟩

theorem PlanSound.child_parent {position offset : Nat} (bound : position < plan.order.length)
    (within : offset < (childrenOf plan.keys plan.order[position]).length) :
    ((builtView plan kind generation).keyAt (childStart plan position + offset)).parent_index =
      position := by
  obtain ⟨inside, same⟩ := sound.child_at bound within
  have stored := sound.keyAt generation size inside
  obtain ⟨other, held, owner⟩ := mem_childrenOf.mp (List.getElem_mem within)
  obtain ⟨flat, parent⟩ := sound.parent_position (BuildPlan.short size) held other
  have index := congrArg KeyRecord.parent_index stored.record_eq
  dsimp only [keyRecordOf] at index
  rw [index, same, flat, owner, sound.number position bound]

theorem PlanSound.listed (bound : position < plan.order.length) (other : position ≠ 0) :
    ∃ parent, ∃ inside : parent < plan.order.length, ∃ offset,
      offset < (childrenOf plan.keys plan.order[parent]).length ∧
      position = childStart plan parent + offset := by
  obtain ⟨zero, root⟩ := sound.order_zero
  have held := sound.order_inside bound
  have child : plan.order[position] ≠ 0 := by
    intro same
    rw [← root] at same
    exact other ((sound.level.distinct.getElem_inj_iff).mp same)
  obtain ⟨_, parent⟩ := sound.parent_position (BuildPlan.short size) held child
  obtain ⟨inside, same⟩ := sound.position parent
  have member : plan.order[position] ∈ childrenOf plan.keys
      plan.order[(keyOf plan.keys (keyOf plan.keys plan.order[position]).parent).flat_index] :=
    mem_childrenOf.mpr ⟨child, held, same.symm⟩
  obtain ⟨offset, within, found⟩ := List.getElem_of_mem member
  obtain ⟨child_inside, child_same⟩ := sound.child_at inside within
  refine ⟨_, inside, offset, within, ?_⟩
  rw [found] at child_same
  exact ((sound.level.distinct.getElem_inj_iff).mp child_same).symm

theorem PlanSound.few_values : values.length < invalid_index := by
  have parts := size
  simp only [BuildPlan.file_size, BuildPlan.data_heap_offset, BuildPlan.string_heap_offset,
    BuildPlan.value_table_offset, header_size, value_record_size, sound.values_eq] at parts
  unfold invalid_index
  omega

theorem PlanSound.validKey {position : Nat} (bound : position < plan.order.length) :
    KeyValid (builtView plan kind generation) position := by
  have held := sound.order_inside bound
  have key_count := sound.key_count generation
  have value_count := sound.value_count generation
  have counted := sound.child_count generation size bound
  obtain ⟨value_length, first_value⟩ := sound.value_range generation size bound
  obtain ⟨inside, stored⟩ := encodePlan_key kind generation bound
  have view_stored := sound.keyAt generation size bound
  have parent_index := congrArg KeyRecord.parent_index view_stored.record_eq
  dsimp only [keyRecordOf] at parent_index
  have short := BuildPlan.short size
  have parent_lt (child : position ≠ 0) :
      ((builtView plan kind generation).keyAt position).parent_index < plan.order.length := by
    obtain ⟨parent, parent_inside, offset, within, same⟩ := sound.listed size bound child
    rw [same, sound.child_parent generation size parent_inside within]
    exact parent_inside
  have order_length := sound.order_length
  constructor
  · exact Layout.keyReserved_view inside
  · intro some
    rw [key_count]
    apply parent_lt
    rintro rfl
    obtain ⟨_, root⟩ := sound.order_zero
    rw [parent_index, root, sound.keys.root_parent, BuildPlan.flatOf, if_pos rfl] at some
    exact some rfl
  · intro child
    have before := parent_lt child
    refine ⟨by omega, ?_⟩
    obtain ⟨parent, parent_inside, offset, within, same⟩ := sound.listed size bound child
    have owner := sound.child_parent generation size parent_inside within
    have some : childrenOf plan.keys plan.order[parent] ≠ [] :=
      List.length_pos_iff.mp (Nat.zero_lt_of_lt within)
    have first := sound.first_child_index generation size parent_inside some
    have count := sound.child_count generation size parent_inside
    rw [← same] at owner
    rw [owner, keyListedByParent, Bool.and_eq_true, decide_eq_true_eq, indexInRange_iff, first,
      count, key_count]
    omega
  · intro child
    have other : plan.order[position] ≠ 0 := by
      obtain ⟨zero, root⟩ := sound.order_zero
      intro same
      rw [← root] at same
      exact child ((sound.level.distinct.getElem_inj_iff).mp same)
    have valid := sound.keys.names _ held other
    have len : ((builtView plan kind generation).keyAt position).name_len =
        (keyOf plan.keys plan.order[position]).name.length :=
      congrArg KeyRecord.name_len view_stored.record_eq
    rw [len]
    constructor
    · intro empty
      rw [List.length_eq_zero_iff.mp empty] at valid
      cases valid
    · intro _
      rw [view_stored.name.slice]
      exact ⟨view_stored.name.inside, valid⟩
  · rw [counted, key_count]
    rcases eq_or_ne (childrenOf plan.keys plan.order[position]) [] with empty | some
    · left
      have none := congrArg KeyRecord.first_child_index view_stored.record_eq
      dsimp only [keyRecordOf] at none
      rw [none, sound.first_child short bound, if_pos empty, empty]
      exact ⟨rfl, rfl⟩
    · right
      have pos := List.length_pos_iff.mpr some
      obtain ⟨last, _⟩ := sound.child_at bound (Nat.sub_one_lt_of_lt pos)
      rw [sound.first_child_index generation size bound some]
      omega
  · rw [value_length, first_value, value_count]
    have range := (sound.values_range bound).1
    have few := sound.few_values size
    by_cases empty : (plan.sources plan.order[position]).length = 0
    · rw [if_pos empty]
      exact .inl ⟨empty, rfl⟩
    · rw [if_neg empty]
      exact .inr (by omega)
  · intro offset within
    rw [counted] at within
    have some : childrenOf plan.keys plan.order[position] ≠ [] :=
      List.length_pos_iff.mp (Nat.zero_lt_of_lt within)
    rw [sound.first_child_index generation size bound some]
    exact sound.child_parent generation size bound within
  · intro offset within
    rw [value_length] at within
    rw [first_value, if_neg (by omega)]
    exact (sound.valueAt generation size (BuildPlan.source_at bound within)).owner

theorem PlanSound.validValue {position : Nat} (bound : position < values.length) :
    ValueValid (builtView plan kind generation) position := by
  have key_count := sound.key_count generation
  have entry_bound : position < (valueEntries plan plan.order.length).length := by
    rwa [sound.valueEntries_length]
  obtain ⟨flat_i, before, offset, within, rfl⟩ := exists_valueEntries_position entry_bound
  rw [List.getD_eq_getElem _ _ before] at within
  have entry := BuildPlan.source_at before within
  obtain ⟨inside, _⟩ := encodePlan_value kind generation entry
  have stored := sound.valueAt generation size entry
  obtain ⟨value_length, first_value⟩ := sound.value_range generation size before
  have member : (plan.sources plan.order[flat_i])[offset] < values.length :=
    ((sound.mem_sources (sound.order_inside before)).mp (List.getElem_mem within)).1
  have well : (plan.values.getD (plan.sources plan.order[flat_i])[offset] default).WellFormed kind := by
    rw [sound.values_eq, List.getD_eq_getElem _ _ member]
    exact (sound.owned.get member (sound.owned.length_eq ▸ member)).valid
  constructor
  · exact Layout.valueReserved_view inside
  · rw [stored.owner, key_count]
    exact before
  · rw [stored.owner, valueListedByOwner, Bool.and_eq_true, decide_eq_true_eq, indexInRange_iff,
      value_length, first_value, key_count, if_neg (by omega)]
    have range := (sound.values_range before).1
    have few := sound.few_values size
    omega
  · rw [stored.name_len]
    constructor
    · exact fun _ => .inl rfl
    · intro _
      rw [stored.name.slice]
      exact ⟨stored.name.inside, well.name⟩
  · have heap := stored.data.inside
    rw [byteRange_eq_ok, stored.data_len]
    refine ⟨fun _ => .inr (by omega), fun _ => heap, ?_⟩
    rw [HiveView.valueData, stored.data_len]
  · rw [sound.valueData generation size entry, stored.value_type]
    exact well.payload

theorem PlanSound.valid : Valid (builtView plan kind generation) := by
  have key_count := sound.key_count generation
  have value_count := sound.value_count generation
  constructor
  · obtain ⟨zero, root⟩ := sound.order_zero
    obtain ⟨inside, _⟩ := encodePlan_key kind generation zero
    have stored := sound.keyAt generation size zero
    have parent := congrArg KeyRecord.parent_index stored.record_eq
    have len := congrArg KeyRecord.name_len stored.record_eq
    dsimp only [keyRecordOf] at parent len
    rw [root, sound.keys.root_parent, BuildPlan.flatOf, if_pos rfl] at parent
    rw [root, sound.keys.root_name, List.length_nil] at len
    refine ⟨parent, len, ?_⟩
    rw [builtView, Layout.keyAt_view (sound.fits generation size) inside]
    have whole := encodePlan_head kind generation zero
    rw [List.head?_eq_getElem?, List.getElem?_eq_getElem inside] at whole
    rw [Option.some.inj whole]
    rfl
  · intro index inside
    exact sound.validKey generation size (key_count ▸ inside)
  · intro index inside
    exact sound.validValue generation size (value_count ▸ inside)
  · intro parent inside
    rw [key_count] at inside
    intro far far_inside near before
    rw [sound.child_count generation size inside] at far_inside
    have some : childrenOf plan.keys plan.order[parent] ≠ [] :=
      List.length_pos_iff.mp (Nat.zero_lt_of_lt far_inside)
    have near_inside := before.trans far_inside
    obtain ⟨near_bound, near_same⟩ := sound.child_at inside near_inside
    obtain ⟨far_bound, far_same⟩ := sound.child_at inside far_inside
    dsimp only
    rw [sound.first_child_index generation size inside some, sound.keyName generation size near_bound,
      sound.keyName generation size far_bound, near_same, far_same]
    obtain ⟨near_other, near_held, near_owner⟩ := mem_childrenOf.mp (List.getElem_mem near_inside)
    obtain ⟨far_other, far_held, far_owner⟩ := mem_childrenOf.mp (List.getElem_mem far_inside)
    by_contra matching
    rw [Bool.not_eq_false] at matching
    have same := sound.keys.distinct _ near_held _ far_held near_other far_other
      (near_owner.trans far_owner.symm) matching
    have positions := ((childrenOf_nodup plan.keys _).getElem_inj_iff).mp same
    omega
  · intro owner inside
    rw [key_count] at inside
    intro far far_inside near before
    obtain ⟨value_length, first_value⟩ := sound.value_range generation size inside
    rw [value_length] at far_inside
    have near_inside := before.trans far_inside
    have held := sound.order_inside inside
    dsimp only
    rw [first_value, if_neg (by omega), sound.valueName generation size (BuildPlan.source_at inside near_inside),
      sound.valueName generation size (BuildPlan.source_at inside far_inside), sound.values_eq]
    dsimp only
    have owned (offset : Nat) (within : offset < (plan.sources plan.order[owner]).length) :
        (plan.sources plan.order[owner])[offset] < values.length ∧
          plan.owners.getD (plan.sources plan.order[owner])[offset] 0 = plan.order[owner] :=
      (sound.mem_sources held).mp (List.getElem_mem within)
    apply sound.distinct _ (owned far far_inside).1 _ (sound.sources_lt held far_inside before)
    rw [(owned near near_inside).2, (owned far far_inside).2]

end View

end R4OS.Registry
