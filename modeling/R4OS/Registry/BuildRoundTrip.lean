import R4OS.Registry.BuildLayout

/-!
# Built hives return their values

The parser accepts what the builder writes.  Every value is found under its path and name, and nothing
else is found.
-/

namespace R4OS.Registry

open Text

variable {kind : HiveKind} {values : List BuildValue} {plan : BuildPlan}

variable {view : HiveView}

theorem HiveView.findKey_eq_some {path : Bytes} {found : Nat} :
    view.findKey path = some found ↔ ∃ rest, parseRoot path = some ⟨view.header.hive_kind, rest⟩ ∧
      (pathComponents rest).foldlM view.findChild 0 = some found := by
  unfold HiveView.findKey
  rw [Option.bind_eq_bind, Option.bind_eq_some_iff]
  constructor
  · rintro ⟨parsed, root, rest⟩
    obtain ⟨_, same, walked⟩ := Option.bind_eq_some_iff.mp rest
    rw [Option.guard_eq_some'] at same
    exact ⟨parsed.rest, by rw [root, ← same], walked⟩
  · rintro ⟨rest, root, walked⟩
    refine ⟨_, root, Option.bind_eq_some_iff.mpr ⟨(), ?_, walked⟩⟩
    rw [Option.guard_eq_some']

theorem HiveView.getValue_eq_some {path name : Bytes} {value : Value} :
    view.getValue path name = some value ↔ ∃ key_index value_index,
      view.findKey path = some key_index ∧ view.findValue key_index name = some value_index ∧
        value = ⟨(view.valueAt value_index).value_type,
          view.valueData (view.valueAt value_index)⟩ := by
  unfold HiveView.getValue
  rw [Option.bind_eq_bind, Option.bind_eq_some_iff]
  constructor
  · rintro ⟨key_index, key, rest⟩
    obtain ⟨value_index, found, same⟩ := Option.bind_eq_some_iff.mp rest
    exact ⟨key_index, value_index, key, found, (Option.some.inj same).symm⟩
  · rintro ⟨key_index, value_index, key, found, rfl⟩
    exact ⟨key_index, key, Option.bind_eq_some_iff.mpr ⟨value_index, found, rfl⟩⟩

section Lookup

variable (generation : UInt64) (sound : PlanSound kind values plan)
  (size : plan.file_size ≤ 0xffffffff)

variable {position : Nat} {name : Bytes}

include sound size

/-- A child is found in the hive exactly when the builder has it. -/
theorem PlanSound.findChild (bound : position < plan.order.length) (name : Bytes) :
    (builtView plan kind generation).findChild position name =
      (childNamed plan.keys plan.order[position] name).map fun index =>
        (keyOf plan.keys index).flat_index := by
  have key_count := sound.key_count generation
  have counted := sound.child_count generation size bound
  unfold HiveView.findChild
  rw [key_count, if_neg (by omega)]
  dsimp only
  rcases eq_or_ne (childrenOf plan.keys plan.order[position]) [] with empty | some
  · have none : childNamed plan.keys plan.order[position] name = none := by
      rw [Option.eq_none_iff_forall_ne_some]
      intro index found
      obtain ⟨other, held, matching⟩ := childNamed_of_eq_some found
      have member : index ∈ childrenOf plan.keys plan.order[position] :=
        mem_childrenOf.mpr ⟨other, held, (isChild_iff.mp matching).1⟩
      rw [empty] at member
      cases member
    rw [if_pos (.inl (by rw [counted, empty]; rfl)), none, Option.map_none]
  · have first := sound.first_child_index generation size bound some
    have pos := List.length_pos_iff.mpr some
    obtain ⟨start_inside, _⟩ := sound.child_at bound pos
    have short := BuildPlan.short size
    have order_length := sound.order_length
    rw [if_neg (by omega), first, counted]
    have matches_iff (offset : Nat)
        (within : offset < (childrenOf plan.keys plan.order[position]).length) :
        (decide (((builtView plan kind generation).keyAt
            (childStart plan position + offset)).parent_index = position) &&
          asciiEqlIgnoreCase ((builtView plan kind generation).keyName
            ((builtView plan kind generation).keyAt (childStart plan position + offset))) name) =
        isChild plan.keys plan.order[position] name
          (childrenOf plan.keys plan.order[position])[offset] := by
      obtain ⟨inside, same⟩ := sound.child_at bound within
      rw [sound.child_parent generation size bound within, sound.keyName generation size inside, same, isChild,
        (mem_childrenOf.mp (List.getElem_mem within)).2.2]
      simp
    cases found : childNamed plan.keys plan.order[position] name with
    | none =>
      rw [Option.map_none, List.find?_eq_none]
      intro index member
      rw [List.mem_range'_1] at member
      have within : index - childStart plan position <
          (childrenOf plan.keys plan.order[position]).length := by omega
      have matching := matches_iff _ within
      rw [Nat.add_sub_cancel' member.1] at matching
      obtain ⟨other, held, _⟩ := mem_childrenOf.mp (List.getElem_mem within)
      rw [matching, childNamed_eq_none.mp found _ held other]
      simp
    | some index =>
      obtain ⟨other, held, matching⟩ := childNamed_of_eq_some found
      have member : index ∈ childrenOf plan.keys plan.order[position] :=
        mem_childrenOf.mpr ⟨other, held, (isChild_iff.mp matching).1⟩
      obtain ⟨offset, within, rfl⟩ := List.getElem_of_mem member
      obtain ⟨inside, same⟩ := sound.child_at bound within
      have number := sound.number _ inside
      rw [same] at number
      rw [Option.map_some, number, List.find?_range'_eq_some]
      refine ⟨(matches_iff offset within).trans matching, ?_, ?_⟩
      · rw [List.mem_range'_1]
        omega
      · intro earlier after before
        have earlier_within : earlier - childStart plan position <
            (childrenOf plan.keys plan.order[position]).length := by omega
        have earlier_matching := matches_iff _ earlier_within
        rw [Nat.add_sub_cancel' after] at earlier_matching
        rw [earlier_matching]
        by_contra again
        rw [Bool.not_eq_true', Bool.not_eq_false] at again
        obtain ⟨earlier_other, earlier_held, _⟩ :=
          mem_childrenOf.mp (List.getElem_mem earlier_within)
        have twice := sound.keys.childNamed_iff.mpr ⟨earlier_other, earlier_held, again⟩
        rw [found] at twice
        have positions := ((childrenOf_nodup plan.keys _).getElem_inj_iff).mp
          (Option.some.inj twice)
        omega

/-- Paths lead to the numbers of the keys of the builder. -/
theorem PlanSound.findPath {index : Nat} (inside : index < plan.keys.length)
    (components : List Bytes) :
    components.foldlM (builtView plan kind generation).findChild
        (keyOf plan.keys index).flat_index =
      (walk plan.keys index components).map fun target => (keyOf plan.keys target).flat_index := by
  induction components generalizing index with
  | nil => rfl
  | cons component components induction =>
    obtain ⟨bound, same⟩ := sound.position inside
    rw [List.foldlM_cons, walk_cons, sound.findChild generation size bound, same]
    cases found : childNamed plan.keys index component with
    | none => rfl
    | some next => exact induction (childNamed_of_eq_some found).2.1

theorem PlanSound.findKey {path : Bytes} {found : Nat} :
    (builtView plan kind generation).findKey path = some found ↔
      ∃ rest target, parseRoot path = some ⟨kind, rest⟩ ∧
        walk plan.keys 0 (pathComponents rest) = some target ∧
        found = (keyOf plan.keys target).flat_index := by
  have root : (keyOf plan.keys 0).flat_index = 0 := by
    obtain ⟨zero, same⟩ := sound.order_zero
    have number := sound.number 0 zero
    rwa [same] at number
  have kinds : (builtView plan kind generation).header.hive_kind = kind := (sound.full generation).2.1
  have walked (rest : Bytes) := sound.findPath generation size sound.keys.nonempty
    (pathComponents rest)
  rw [root] at walked
  rw [HiveView.findKey_eq_some, kinds]
  simp only [walked, Option.map_eq_some_iff]
  constructor
  · rintro ⟨rest, parsed, target, leads, rfl⟩
    exact ⟨rest, target, parsed, leads, rfl⟩
  · rintro ⟨rest, target, parsed, leads, rfl⟩
    exact ⟨rest, parsed, target, leads, rfl⟩

theorem PlanSound.findValue {offset : Nat} (bound : position < plan.order.length)
    (within : offset < (plan.sources plan.order[position]).length) (same : asciiEqlIgnoreCase
      (plan.values.getD (plan.sources plan.order[position])[offset] default).name name = true) :
    (builtView plan kind generation).findValue position name =
      some ((valueEntries plan position).length + offset) := by
  obtain ⟨counted, first⟩ := sound.value_range generation size bound
  rw [if_neg (by omega)] at first
  have range := (sound.values_range bound).1
  have few := sound.few_values size
  have key_count := sound.key_count generation
  unfold HiveView.findValue
  rw [key_count, if_neg (by omega)]
  dsimp only
  rw [counted, first, if_neg (by omega), List.find?_range'_eq_some]
  have owner (other : Nat) (inside : other < (plan.sources plan.order[position]).length) :=
    (sound.valueAt generation size (BuildPlan.source_at bound inside)).owner
  have names (other : Nat) (inside : other < (plan.sources plan.order[position]).length) :=
    sound.valueName generation size (BuildPlan.source_at bound inside)
  refine ⟨?_, ?_, ?_⟩
  · rw [owner offset within, names offset within, same]
    simp
  · rw [List.mem_range'_1]
    omega
  · intro earlier after before
    obtain ⟨prior, rfl⟩ := Nat.exists_eq_add_of_le after
    have prior_within : prior < (plan.sources plan.order[position]).length := by omega
    have valid := sound.valid generation size
    have distinct := valid.distinct_values position (by omega) offset (counted ▸ within) prior
      (by omega)
    dsimp only at distinct
    rw [first, names offset within, names prior prior_within] at distinct
    rw [names prior prior_within]
    rw [asciiEqlIgnoreCase_iff] at same
    have differs : asciiEqlIgnoreCase
        (plan.values.getD (plan.sources plan.order[position])[prior] default).name name = false := by
      rw [Bool.eq_false_iff, Ne, asciiEqlIgnoreCase_iff, ← same, ← asciiEqlIgnoreCase_iff,
        ← Ne, ← Bool.eq_false_iff]
      exact distinct
    rw [differs]
    simp

theorem PlanSound.findValue_source {found : Nat} (bound : position < plan.order.length) (lookup : (builtView plan kind generation).findValue position name = some found) :
    ∃ offset, ∃ within : offset < (plan.sources plan.order[position]).length,
      found = (valueEntries plan position).length + offset ∧ asciiEqlIgnoreCase
        (plan.values.getD (plan.sources plan.order[position])[offset] default).name name = true := by
  obtain ⟨counted, first⟩ := sound.value_range generation size bound
  have key_count := sound.key_count generation
  unfold HiveView.findValue at lookup
  rw [key_count, if_neg (by omega)] at lookup
  dsimp only at lookup
  split at lookup
  · cases lookup
  · next some =>
      rw [not_or, counted] at some
      rw [if_neg some.1] at first
      rw [first, counted] at lookup
      have member := List.mem_of_find?_eq_some lookup
      rw [List.mem_range'_1] at member
      obtain ⟨offset, rfl⟩ := Nat.exists_eq_add_of_le member.1
      have within : offset < (plan.sources plan.order[position]).length := by omega
      have matching := List.find?_some lookup
      rw [sound.valueName generation size (BuildPlan.source_at bound within), Bool.and_eq_true] at matching
      exact ⟨offset, within, rfl, matching.2⟩

theorem PlanSound.getValue_iff {path : Bytes} {value : Value} :
    (builtView plan kind generation).getValue path name = some value ↔
      ∃ index < values.length, ∃ rest, parseRoot path = some ⟨kind, rest⟩ ∧
        walk plan.keys 0 (pathComponents rest) = some (plan.owners.getD index 0) ∧
        asciiEqlIgnoreCase (values.getD index default).name name = true ∧
        value = ⟨(values.getD index default).value_type, (values.getD index default).data⟩ := by
  rw [HiveView.getValue_eq_some]
  have record {position offset : Nat} (bound : position < plan.order.length)
      (within : offset < (plan.sources plan.order[position]).length) :
      ((builtView plan kind generation).valueAt
          ((valueEntries plan position).length + offset)).value_type =
          (values.getD (plan.sources plan.order[position])[offset] default).value_type ∧
        (builtView plan kind generation).valueData ((builtView plan kind generation).valueAt
          ((valueEntries plan position).length + offset)) =
          (values.getD (plan.sources plan.order[position])[offset] default).data := by
    rw [← sound.values_eq]
    exact ⟨(sound.valueAt generation size (BuildPlan.source_at bound within)).value_type,
      sound.valueData generation size (BuildPlan.source_at bound within)⟩
  constructor
  · rintro ⟨key_index, value_index, key, lookup, rfl⟩
    obtain ⟨rest, target, root, walked, rfl⟩ := (sound.findKey generation size).mp key
    have held := walk_lt sound.keys.nonempty walked
    obtain ⟨bound, same⟩ := sound.position held
    obtain ⟨offset, within, rfl, matching⟩ := sound.findValue_source generation size bound lookup
    have source := (sound.mem_sources (sound.order_inside bound)).mp (List.getElem_mem within)
    rw [sound.values_eq] at matching
    obtain ⟨type, data⟩ := record bound within
    refine ⟨_, source.1, rest, root, ?_, matching, ?_⟩
    · rw [walked, source.2, same]
    · rw [type, data]
  · rintro ⟨index, inside, rest, root, walked, matching, rfl⟩
    have held := walk_lt sound.keys.nonempty walked
    obtain ⟨bound, same⟩ := sound.position held
    have member := (sound.mem_sources (sound.order_inside bound)).mpr ⟨inside, same.symm⟩
    obtain ⟨offset, within, source⟩ := List.getElem_of_mem member
    rw [← source, ← sound.values_eq] at matching
    have lookup := sound.findValue generation size bound within matching
    obtain ⟨type, data⟩ := record bound within
    refine ⟨_, _, (sound.findKey generation size).mpr ⟨rest, _, root, walked, rfl⟩, lookup, ?_⟩
    rw [type, data, source]

end Lookup

def requiredSize (values : List BuildValue) : Nat :=
  header_size + (keyPaths values).length * key_record_size + values.length * value_record_size +
    (((keyPaths values).map fun path => (path.getLast?.getD []).length).sum +
      (values.map fun value => value.name.length).sum) +
    (values.map fun value => value.data.length).sum

/-- A buffer and scratch memory with room for a list of values. -/
structure FitsCapacities (out : Bytes) (scratch : BuildScratch) (values : List BuildValue) :
    Prop where
  keys : (keyPaths values).length ≤ scratch.keys
  flat_key_order : (keyPaths values).length ≤ scratch.flat_key_order
  value_key_indices : values.length ≤ scratch.value_key_indices
  file_size : requiredSize values ≤ 0xffffffff
  out : requiredSize values ≤ out.length

section Sizes

variable {path : List Bytes}

theorem PlanSound.walk_keyPaths (sound : PlanSound kind values plan)
    (member : path ∈ keyPaths values) :
    ∃ index < plan.keys.length, walk plan.keys 0 path = some index := by
  rw [keyPaths, List.mem_dedup, List.mem_cons, List.mem_flatMap] at member
  rcases member with rfl | ⟨value, listed, leads⟩
  · exact ⟨0, sound.keys.nonempty, rfl⟩
  · obtain ⟨index, inside, rfl⟩ := List.getElem_of_mem listed
    have owned := sound.owned.get inside (sound.owned.length_eq ▸ inside)
    obtain ⟨rest, parsed, _⟩ := owned.valid.path
    have walked := owned.walked rest parsed
    rw [List.get_eq_getElem] at parsed
    rw [List.mem_inits, pathIdentity, parsed] at leads
    obtain ⟨more, split⟩ := leads
    change path ++ more = folded (pathComponents rest) at split
    rw [← walk_congr (folded_folded _), ← split, walk_append] at walked
    obtain ⟨target, found, _⟩ := Option.bind_eq_some_iff.mp walked
    exact ⟨target, walk_lt sound.keys.nonempty found, found⟩

theorem folded_of_mem_keyPaths (member : path ∈ keyPaths values) :
    folded path = path := by
  rw [keyPaths, List.mem_dedup, List.mem_cons, List.mem_flatMap] at member
  rcases member with rfl | ⟨value, listed, leads⟩
  · rfl
  · rw [List.mem_inits] at leads
    cases identity : pathIdentity value.key_path with
    | none =>
      rw [identity] at leads
      rw [List.prefix_nil.mp leads]
      rfl
    | some pair =>
      rw [identity] at leads
      obtain ⟨parsed, _, rfl⟩ := Option.map_eq_some_iff.mp identity
      obtain ⟨more, split⟩ := leads
      change path ++ more = folded (pathComponents parsed.rest) at split
      have again := folded_folded (pathComponents parsed.rest)
      rw [← split, folded, List.map_append] at again
      exact (List.append_inj again (by rw [List.length_map])).1

variable (sound : PlanSound kind values plan)

include sound

theorem PlanSound.name_length {index : Nat} (walked : walk plan.keys 0 path = some index) :
    (keyOf plan.keys index).name.length = (path.getLast?.getD []).length := by
  rcases List.eq_nil_or_concat path with rfl | ⟨front, last, rfl⟩
  · obtain rfl : 0 = index := Option.some.inj walked
    rw [sound.keys.root_name]
    rfl
  · rw [List.concat_eq_append] at walked ⊢
    obtain ⟨parent, _, found⟩ := walk_concat walked
    have same := (isChild_iff.mp (childNamed_of_eq_some found).2.2).2
    have lengths := congrArg List.length (asciiEqlIgnoreCase_iff.mp same)
    simpa using lengths

theorem PlanSound.keyPaths_perm (covered : Covered (keyPaths values) plan.keys) :
    ((keyPaths values).map fun path => (walk plan.keys 0 path).getD 0).Perm
      (List.range plan.keys.length) := by
  rw [List.perm_ext_iff_of_nodup _ List.nodup_range]
  · intro index
    rw [List.mem_map, List.mem_range]
    constructor
    · rintro ⟨path, member, rfl⟩
      obtain ⟨target, inside, walked⟩ := sound.walk_keyPaths member
      rwa [walked]
    · intro inside
      obtain ⟨path, member, walked⟩ := covered index inside
      exact ⟨path, member, by rw [walked]; rfl⟩
  · apply List.Nodup.map_on _ (List.nodup_dedup _)
    intro first first_mem second second_mem same
    obtain ⟨first_target, _, first_walked⟩ := sound.walk_keyPaths first_mem
    obtain ⟨second_target, _, second_walked⟩ := sound.walk_keyPaths second_mem
    rw [first_walked, second_walked, Option.getD_some, Option.getD_some] at same
    rw [← same] at second_walked
    have equal := walk_injective first_walked second_walked
    rwa [folded_of_mem_keyPaths first_mem, folded_of_mem_keyPaths second_mem] at equal

theorem PlanSound.file_size_eq
    (covered : Covered (keyPaths values) plan.keys) : plan.file_size = requiredSize values := by
  have perm := sound.keyPaths_perm covered
  have count : (keyPaths values).length = plan.keys.length := by
    have lengths := perm.length_eq
    rwa [List.length_map, List.length_range] at lengths
  have names : (plan.order.map fun index => (keyOf plan.keys index).name.length).sum =
      ((keyPaths values).map fun path => (path.getLast?.getD []).length).sum := by
    rw [(((sound.keys.order_perm sound.level).trans perm.symm).map _).sum_eq, List.map_map]
    congr 1
    apply List.map_congr_left
    intro path member
    obtain ⟨target, _, walked⟩ := sound.walk_keyPaths member
    rw [Function.comp_apply, walked]
    exact sound.name_length walked
  rw [BuildPlan.file_size, BuildPlan.data_heap_offset, BuildPlan.string_heap_offset,
    BuildPlan.value_table_offset, BuildPlan.string_heap_size, BuildPlan.data_heap_size,
    requiredSize, names, count, sound.values_eq]

end Sizes

/-- What a builder that has succeeded returns. -/
theorem buildHiveViewInto_eq_ok {out : Bytes} {scratch : BuildScratch}
    (built : buildHiveViewInto out scratch kind generation values = .ok view) :
    ∃ plan, PlanSound kind values plan ∧ plan.file_size ≤ 0xffffffff ∧
      view = builtView plan kind generation ∧ parseHive view.bytes = .ok view := by
  unfold buildHiveViewInto at built
  obtain ⟨plan, planned, built⟩ := bind_eq_ok.mp built
  obtain ⟨bytes, emitted, parsed⟩ := bind_eq_ok.mp built
  have size : plan.file_size ≤ 0xffffffff := by
    unfold emitPlan at emitted
    obtain ⟨passed, _⟩ := unit_bind_eq_ok.mp emitted
    exact not_lt.mp (reject_eq_ok.mp passed)
  have sound := planHive_sound planned (BuildPlan.short size)
  rw [sound.emitPlan] at emitted
  split at emitted
  · cases emitted
  · split at emitted
    · cases emitted
    · cases emitted
      have accepted := Layout.parseHive_bytes (sound.fits generation size) (sound.valid generation size)
      rw [accepted] at parsed
      cases parsed
      exact ⟨plan, sound, size, rfl, accepted⟩

/-- The parser accepts what the builder writes, and what it finds under paths and names are exactly
the values of the list.  The builder succeeds on every list in good form that fits its memory. -/
theorem buildHiveViewInto_roundTrip (out : Bytes) (scratch : BuildScratch) (kind : HiveKind)
    (generation : UInt64) (values : List BuildValue) :
    (∀ view, buildHiveViewInto out scratch kind generation values = .ok view →
      parseHive view.bytes = .ok view ∧ view.header.hive_kind = kind ∧
        view.header.generation = generation.toNat ∧ view.header.value_count = values.length ∧
        (∀ value ∈ values,
          view.getValue value.key_path value.name = some ⟨value.value_type, value.data⟩) ∧
        ∀ path name, (∀ value ∈ values, ¬ (pathIdentity path = pathIdentity value.key_path ∧
            asciiEqlIgnoreCase value.name name = true)) → view.getValue path name = none) ∧
      (WellFormed kind values → FitsCapacities out scratch values →
        ∃ view, buildHiveViewInto out scratch kind generation values = .ok view) := by
  constructor
  · intro view built
    obtain ⟨plan, sound, size, rfl, parsed⟩ := buildHiveViewInto_eq_ok built
    obtain ⟨_, same_kind, same_generation⟩ := sound.full generation
    refine ⟨parsed, same_kind, same_generation, sound.value_count generation, ?_, ?_⟩
    · intro value member
      obtain ⟨index, inside, rfl⟩ := List.getElem_of_mem member
      have owned := sound.owned.get inside (sound.owned.length_eq ▸ inside)
      obtain ⟨rest, root, _⟩ := owned.valid.path
      rw [sound.getValue_iff generation size]
      have walked := owned.walked rest root
      rw [List.get_eq_getElem] at root walked
      refine ⟨index, inside, rest, root, ?_, ?_, ?_⟩
      · rw [walked, List.getD_eq_getElem _ _ (sound.owned.length_eq ▸ inside)]
      · rw [List.getD_eq_getElem _ _ inside, asciiEqlIgnoreCase_self]
      · rw [List.getD_eq_getElem _ _ inside]
    · intro path name absent
      rw [Option.eq_none_iff_forall_ne_some]
      intro value found
      obtain ⟨index, inside, rest, root, walked, matching, _⟩ := (sound.getValue_iff generation size).mp found
      rw [List.getD_eq_getElem _ _ inside] at matching
      have owned := sound.owned.get inside (sound.owned.length_eq ▸ inside)
      obtain ⟨own_rest, own_root, _⟩ := owned.valid.path
      have own_walked := owned.walked own_rest own_root
      rw [List.getD_eq_getElem _ _ (sound.owned.length_eq ▸ inside)] at walked
      rw [List.get_eq_getElem] at own_root
      refine absent _ (List.getElem_mem inside) ⟨?_, matching⟩
      rw [pathIdentity, pathIdentity, root, own_root, Option.map_some, Option.map_some,
        walk_injective walked own_walked]
  · intro formed fits
    have short : (keyPaths values).length ≤ invalid_index := by
      have size := fits.file_size
      simp only [requiredSize, header_size, key_record_size] at size
      unfold invalid_index
      omega
    obtain ⟨plan, planned, covered⟩ := planHive_total formed fits.keys fits.flat_key_order
      fits.value_key_indices short
    have few : plan.keys.length ≤ invalid_index := covered.length_le.trans short
    have sound := planHive_sound planned few
    have size := sound.file_size_eq covered
    have file := fits.file_size
    have buffer := fits.out
    refine ⟨builtView plan kind generation, bind_eq_ok.mpr ⟨plan, planned, bind_eq_ok.mpr ⟨_, ?_,
      Layout.parseHive_bytes (sound.fits generation (by omega)) (sound.valid generation (by omega))⟩⟩⟩
    rw [sound.emitPlan, if_neg (by omega), if_neg (by omega)]

/-- One value under one key. -/
def sampleValue : BuildValue where
  key_path := ascii "system\\Boot"
  name := ascii "Delay"
  value_type := .bool
  data := [1]

/-- Scratch memory for a few keys and values. -/
def sampleScratch : BuildScratch where
  keys := 4
  value_key_indices := 4
  flat_key_order := 4
  value_order := 4

theorem buildHiveViewInto_roundTrip_sample :
    ∃ view, buildHiveViewInto (zeros 256) sampleScratch .system 7 [sampleValue] = .ok view ∧
      view.getValue sampleValue.key_path sampleValue.name = some ⟨.bool, [1]⟩ := by
  obtain ⟨decodes, succeeds⟩ :=
    buildHiveViewInto_roundTrip (zeros 256) sampleScratch .system 7 [sampleValue]
  have formed : WellFormed .system [sampleValue] := by
    refine ⟨?_, List.pairwise_singleton _ _⟩
    intro value member
    obtain rfl := List.mem_singleton.mp member
    refine ⟨rfl, by decide, ascii "Boot", by decide, ?_⟩
    rw [show pathComponents (ascii "Boot") = [ascii "Boot"] by decide]
    intro component member
    rw [List.mem_singleton.mp member]
    decide
  have paths : (keyPaths [sampleValue]).length = 2 := by decide
  have size : requiredSize [sampleValue] = 202 := by decide
  have fits : FitsCapacities (zeros 256) sampleScratch [sampleValue] := by
    constructor
    · rw [paths]
      decide
    · rw [paths]
      decide
    · decide
    · rw [size]
      decide
    · rw [size, zeros_length]
      decide
  obtain ⟨view, built⟩ := succeeds formed fits
  obtain ⟨_, _, _, _, found, _⟩ := decodes view built
  exact ⟨view, built, found sampleValue (List.mem_singleton_self _)⟩

end R4OS.Registry
