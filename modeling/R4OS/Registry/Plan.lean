import R4OS.Registry.Numbering

/-!
# Plans of the builder

What the builder knows before it writes: a tree of keys, their order, and for every key the values
that it owns in the order in which they came, grouped in scratch memory or not.
-/

namespace R4OS.Registry

open Text Traversal

/-- The place of the first value of every key in an order. -/
structure Placed (before after : List BuildKey) (order : List Nat) : Prop where
  shape : SameShape before after
  tally : ∀ index, (keyOf after index).tally = (keyOf before index).tally
  number : ∀ index, (keyOf after index).flat_index = (keyOf before index).flat_index
  first : ∀ position (inside : position < order.length),
    (keyOf after order[position]).value_first =
      ((order.take position).map fun index => (keyOf before index).value_count).sum

section Places

variable {before : List BuildKey} {order : List Nat}

theorem placeValues_placed (inside : ∀ index ∈ order, index < before.length)
    (distinct : order.Nodup) :
    Placed before (order.foldl placeValues (before, 0)).1 order ∧
      (order.foldl placeValues (before, 0)).2 =
        (order.map fun index => (keyOf before index).value_count).sum := by
  induction order using List.reverseRecOn with
  | nil =>
    refine ⟨⟨.refl before, fun _ => rfl, fun _ => rfl, ?_⟩, rfl⟩
    rintro position ⟨⟩
  | append_singleton order index induction =>
    rw [List.nodup_append] at distinct
    obtain ⟨placed, total⟩ := induction
      (fun other member => inside other (List.mem_append_left _ member)) distinct.1
    have held := inside index (List.mem_append_right _ (List.mem_singleton_self _))
    rw [← placed.shape.length] at held
    have fresh : index ∉ order :=
      fun member => distinct.2.2 index member index (List.mem_singleton_self _) rfl
    rw [List.foldl_append, List.foldl_cons, List.foldl_nil]
    generalize order.foldl placeValues (before, 0) = state at placed total held
    unfold placeValues
    dsimp only
    refine ⟨⟨placed.shape.trans (.modify fun _ => rfl), ?_, ?_, ?_⟩, ?_⟩
    · intro other
      rw [← placed.tally other]
      exact keyOf_modify_field BuildKey.tally fun _ => rfl
    · intro other
      rw [← placed.number other]
      exact keyOf_modify_field BuildKey.flat_index fun _ => rfl
    · intro position bound
      rw [keyOf_modify _ held]
      rw [List.length_append] at bound
      rcases Nat.lt_succ_iff_lt_or_eq.mp bound with old | rfl
      · rw [List.getElem_append_left old, if_neg, placed.first position old,
          List.take_append_of_le_length (Nat.le_of_lt old)]
        rintro rfl
        exact fresh (List.getElem_mem old)
      · simp [total]
    · have count : (keyOf state.1 index).value_count = (keyOf before index).value_count :=
        congrArg Prod.fst (placed.tally index)
      rw [total, count, List.map_append, List.sum_append, List.map_singleton, List.sum_singleton]

theorem Placed.separate {after : List BuildKey} (placed : Placed before after order)
    {first second : Nat} (first_mem : first ∈ order) (second_mem : second ∈ order)
    (different : first ≠ second) {offset other : Nat}
    (bound : offset < (keyOf before first).value_count)
    (other_bound : other < (keyOf before second).value_count) :
    (keyOf after first).value_first + offset ≠ (keyOf after second).value_first + other := by
  have behind : ∀ near far (inside : far < order.length) (less : near < far),
      (keyOf after order[near]).value_first + (keyOf before order[near]).value_count ≤
        (keyOf after order[far]).value_first := by
    intro near far inside less
    rw [placed.first near (less.trans inside), placed.first far inside]
    have parts : order.take far =
        order.take near ++ order[near] :: (order.take far).drop (near + 1) := by
      have bound : near < (order.take far).length := by
        rw [List.length_take]
        omega
      have cut := List.take_append_drop near (order.take far)
      rw [List.drop_eq_getElem_cons bound, List.take_take, Nat.min_eq_left (Nat.le_of_lt less),
        List.getElem_take] at cut
      exact cut.symm
    rw [parts, List.map_append, List.sum_append, List.map_cons, List.sum_cons]
    omega
  obtain ⟨near, near_inside, rfl⟩ := List.getElem_of_mem first_mem
  obtain ⟨far, far_inside, rfl⟩ := List.getElem_of_mem second_mem
  rcases Nat.lt_trichotomy near far with less | rfl | greater
  · have := behind near far far_inside less
    omega
  · exact absurd rfl different
  · have := behind far near near_inside greater
    omega

end Places

/-- The values of a key among the first ones. -/
def ownedValues (owners : List Nat) (count owner : Nat) : List Nat :=
  (List.range count).filter fun index => owners.getD index 0 = owner

variable (owners : List Nat)

theorem ownedValues_succ (count owner : Nat) :
    ownedValues owners (count + 1) owner =
      ownedValues owners count owner ++ if owners.getD count 0 = owner then [count] else [] := by
  unfold ownedValues
  rw [List.range_succ, List.filter_append, List.filter_singleton]
  simp

theorem length_ownedValues (owner : Nat) :
    (ownedValues owners owners.length owner).length = owners.count owner := by
  have values : (List.range owners.length).map (fun index => owners.getD index 0) = owners := by
    apply List.ext_getElem
    · simp
    · intro index _ inside
      simp [List.getElem?_eq_getElem inside]
  rw [ownedValues, ← List.countP_eq_length_filter]
  calc (List.range owners.length).countP (fun index => owners.getD index 0 = owner)
      = ((List.range owners.length).map fun index => owners.getD index 0).countP (· = owner) := by
        rw [List.countP_map]
        rfl
    _ = owners.count owner := by
        rw [values, List.count_eq_countP]
        apply List.countP_congr
        intro value _
        simp

theorem length_ownedValues_mono {few many : Nat} (owner : Nat) (fewer : few ≤ many) :
    (ownedValues owners few owner).length ≤ (ownedValues owners many owner).length := by
  induction many, fewer using Nat.le_induction with
  | base => exact le_rfl
  | succ many _ induction =>
    rw [ownedValues_succ, List.length_append]
    omega

/-- The groups after some values. -/
structure Grouped (before : List BuildKey) (owners : List Nat) (count : Nat)
    (state : List BuildKey × (Nat → Nat)) : Prop where
  shape : SameShape before state.1
  number : ∀ index, (keyOf state.1 index).flat_index = (keyOf before index).flat_index
  counts : ∀ index, (keyOf state.1 index).value_count = (keyOf before index).value_count
  first : ∀ index, (keyOf state.1 index).value_first = (keyOf before index).value_first
  cursor : ∀ owner, (keyOf state.1 owner).value_cursor = (ownedValues owners count owner).length
  grouped : ∀ owner < before.length, ∀ offset
    (inside : offset < (ownedValues owners count owner).length),
    state.2 ((keyOf before owner).value_first + offset) = (ownedValues owners count owner)[offset]

section Groups

variable {before : List BuildKey} {owners : List Nat} {count : Nat}
  {state : List BuildKey × (Nat → Nat)}

theorem Grouped.start (cursor : ∀ index, (keyOf before index).value_cursor = 0)
    (value_order : Nat → Nat) : Grouped before owners 0 (before, value_order) := by
  constructor
  · exact .refl before
  · exact fun _ => rfl
  · exact fun _ => rfl
  · exact fun _ => rfl
  · exact cursor
  · rintro owner _ offset ⟨⟩

/-- The values of different keys have different places. -/
def Separate (before : List BuildKey) (owners : List Nat) : Prop :=
  ∀ first < before.length, ∀ second < before.length, first ≠ second →
    ∀ offset < (ownedValues owners owners.length first).length,
    ∀ other < (ownedValues owners owners.length second).length,
      (keyOf before first).value_first + offset ≠ (keyOf before second).value_first + other

theorem Grouped.step (grouped : Grouped before owners count state)
    (separate : Separate before owners)
    (inside : count < owners.length) (held : owners[count] < before.length) :
    Grouped before owners (count + 1) (groupValue owners state count) := by
  have owner_eq : owners.getD count 0 = owners[count] := List.getD_eq_getElem _ _ inside
  have bound : owners[count] < state.1.length := grouped.shape.length ▸ held
  unfold groupValue
  rw [owner_eq]
  dsimp only
  constructor
  · exact grouped.shape.trans (.modify fun _ => rfl)
  · intro index
    rw [← grouped.number index]
    exact keyOf_modify_field BuildKey.flat_index fun _ => rfl
  · intro index
    rw [← grouped.counts index]
    exact keyOf_modify_field BuildKey.value_count fun _ => rfl
  · intro index
    rw [← grouped.first index]
    exact keyOf_modify_field BuildKey.value_first fun _ => rfl
  · intro owner
    rw [keyOf_modify _ bound, ownedValues_succ, owner_eq]
    split
    · simp [grouped.cursor]
    · simp [grouped.cursor]
  · intro owner owner_held offset offset_inside
    dsimp only
    rw [grouped.first, grouped.cursor]
    have limit := length_ownedValues_mono owners owner
      (show count + 1 ≤ owners.length from inside)
    have own_limit := length_ownedValues_mono owners owners[count]
      (show count + 1 ≤ owners.length from inside)
    rw [ownedValues_succ, owner_eq, if_pos rfl, List.length_append, List.length_singleton]
      at own_limit
    by_cases same : owners[count] = owner
    · subst same
      by_cases last : offset = (ownedValues owners count owners[count]).length
      · subst last
        rw [Function.update_self]
        simp [ownedValues_succ, List.getElem?_eq_getElem inside]
      · have earlier : offset < (ownedValues owners count owners[count]).length := by
          rw [ownedValues_succ, owner_eq, if_pos rfl, List.length_append,
            List.length_singleton] at offset_inside
          omega
        rw [Function.update_of_ne (by omega), grouped.grouped _ held offset earlier]
        simp only [ownedValues_succ]
        rw [List.getElem_append_left earlier]
    · have elsewhere := separate owner owner_held _ held (Ne.symm same) offset
        (lt_of_lt_of_le offset_inside limit) _ (Nat.lt_of_succ_le own_limit)
      have earlier : offset < (ownedValues owners count owner).length := by
        rwa [ownedValues_succ, owner_eq, if_neg same, List.append_nil] at offset_inside
      rw [Function.update_of_ne elsewhere, grouped.grouped owner owner_held offset earlier]
      simp only [ownedValues_succ]
      rw [List.getElem_append_left earlier]

theorem Grouped.run (cursor : ∀ index, (keyOf before index).value_cursor = 0)
    (separate : Separate before owners)
    (held : ∀ owner ∈ owners, owner < before.length) (value_order : Nat → Nat)
    (bound : count ≤ owners.length) :
    Grouped before owners count
      ((List.range count).foldl (groupValue owners) (before, value_order)) := by
  induction count with
  | zero => exact Grouped.start cursor value_order
  | succ count induction =>
    rw [List.range_succ, List.foldl_append, List.foldl_cons, List.foldl_nil]
    exact (induction (by omega)).step separate bound (held _ (List.getElem_mem bound))

end Groups

/-- The value names of one key differ. -/
def OwnedNamesDistinct (values : List BuildValue) (owners : List Nat) : Prop :=
  ∀ index < values.length, ∀ prior < index, owners.getD prior 0 = owners.getD index 0 →
    asciiEqlIgnoreCase (values.getD prior default).name (values.getD index default).name = false

theorem validateBuildDuplicates_eq_ok {values : List BuildValue} {owners : List Nat} :
    validateBuildDuplicates values owners = .ok () ↔ OwnedNamesDistinct values owners := by
  unfold validateBuildDuplicates
  rw [reject_eq_ok]
  simp only [Bool.not_eq_true', Bool.not_eq_false]
  rw [rangeDistinct_iff]
  · unfold OwnedNamesDistinct
    simp
  · intro prior index same
    simp only [Bool.and_eq_true, decide_eq_true_eq] at same
    rw [same.1, nameHash_congr same.2]

/-- What a finished plan says about its values. -/
structure PlanSound (kind : HiveKind) (values : List BuildValue) (plan : BuildPlan) : Prop where
  keys : KeysSound plan.keys
  level : LevelOrder (childrenOf plan.keys) 0 plan.order plan.order.length
  number : ∀ position (inside : position < plan.order.length),
    (keyOf plan.keys plan.order[position]).flat_index = position
  values_eq : plan.values = values
  owned : List.Forall₂ (OwnedBy kind plan.keys) values plan.owners
  counts : ∀ index, (keyOf plan.keys index).value_count = plan.owners.count index
  sources : ∀ owner < plan.keys.length,
    plan.sources owner = ownedValues plan.owners plan.owners.length owner
  distinct : OwnedNamesDistinct values plan.owners

section Plans

variable {scratch : BuildScratch} {kind : HiveKind} {values : List BuildValue} {plan : BuildPlan}

variable {before after : List BuildKey} {owners order : List Nat}

theorem SameShape.owned (same : SameShape before after) (sound : KeysSound before)
    (owned : List.Forall₂ (OwnedBy kind before) values owners) :
    List.Forall₂ (OwnedBy kind after) values owners :=
  owned.imp fun _ _ one => one.mono same.extends (same.sound sound)

theorem SameShape.level (same : SameShape before after) {cursor : Nat}
    (level : LevelOrder (Registry.childrenOf before) 0 order cursor) :
    LevelOrder (Registry.childrenOf after) 0 order cursor := by
  rwa [funext same.childrenOf]

theorem owned_lt {keys : List BuildKey} (owned : List.Forall₂ (OwnedBy kind keys) values owners) :
    ∀ owner ∈ owners, owner < keys.length := by
  induction owned with
  | nil => rintro owner ⟨⟩
  | cons first _ induction => exact List.forall_mem_cons.mpr ⟨first.inside, induction⟩

/-- Values that are grouped in scratch memory are those that a scan finds. -/
theorem Grouped.sources
    {state : List BuildKey × (Nat → Nat)} (grouped : Grouped before owners owners.length state)
    (counts : ∀ index, (keyOf before index).value_count = owners.count index) {owner : Nat}
    (inside : owner < before.length) :
    BuildPlan.sources { keys := state.1, order, owners, values, value_order := some state.2 }
      owner = ownedValues owners owners.length owner := by
  unfold BuildPlan.sources
  dsimp only
  rw [grouped.counts, counts, ← length_ownedValues]
  apply List.ext_getElem
  · simp
  · intro offset _ bound
    rw [List.getElem_map, List.getElem_range, grouped.first]
    exact grouped.grouped owner inside offset bound

theorem foldl_shape {State Item : Type} (keysOf : State → List BuildKey)
    {step : State → Item → State}
    (keeps : ∀ state item, SameShape (keysOf state) (keysOf (step state item))) (items : List Item)
    (state : State) : SameShape (keysOf state) (keysOf (items.foldl step state)) := by
  induction items generalizing state with
  | nil => exact .refl _
  | cons item items induction => exact (keeps state item).trans (induction _)

theorem flattenKeys_shape {capacity : Nat}
    (flattened : flattenKeys capacity before = .ok (after, order)) : SameShape before after := by
  refine .trans ?_ (flattenFrom_shape flattened)
  exact .modify fun _ => rfl

theorem groupValues_shape (scratch : BuildScratch) (values : List BuildValue) (owners : List Nat)
    (keys : List BuildKey) (order : List Nat) :
    SameShape keys (groupValues scratch values owners keys order).keys := by
  have placing : SameShape keys (order.foldl placeValues (keys, 0)).1 := by
    refine foldl_shape Prod.fst (fun state index => ?_) order (keys, 0)
    exact .modify fun _ => rfl
  unfold groupValues
  split
  · refine placing.trans (foldl_shape Prod.fst (fun state index => ?_) _ (_, fun _ => 0))
    exact .modify fun _ => rfl
  · exact placing

/-- The tree of a finished plan. -/
theorem planHive_sound (planned : planHive scratch kind values = .ok plan)
    (short : plan.keys.length ≤ invalid_index) : PlanSound kind values plan := by
  unfold planHive at planned
  obtain ⟨room, planned⟩ := unit_bind_eq_ok.mp planned
  obtain ⟨_, planned⟩ := unit_bind_eq_ok.mp planned
  obtain ⟨⟨table, owners⟩, collecting, planned⟩ := bind_eq_ok.mp planned
  obtain ⟨checked, planned⟩ := unit_bind_eq_ok.mp planned
  obtain ⟨⟨keys, order⟩, flattened, planned⟩ := bind_eq_ok.mp planned
  cases planned
  rw [reject_eq_ok, not_or] at room
  have collected : Collected scratch kind values (table, owners) :=
    (Collected.start room.1).addValues collecting
  have lengths := collected.owned.length_eq
  have duplicates := validateBuildDuplicates_eq_ok.mp checked
  have sound := collected.sound.keys
  have flat_shape := flattenKeys_shape flattened
  have short_table : table.keys.length ≤ invalid_index := by
    rw [← flat_shape.length, ← (groupValues_shape scratch values owners keys order).length]
    exact short
  obtain ⟨level, numbering⟩ := sound.flattenFrom short_table (LevelOrder.start _ 0)
    sound.numbering_start (Nat.pos_of_ne_zero room.2) (Nat.zero_add _) (Nat.zero_le _) flattened
  have inside : ∀ index ∈ order, index < keys.length := by
    rw [flat_shape.length]
    exact sound.order_lt level
  obtain ⟨placed, _⟩ := placeValues_placed inside level.distinct
  have shape := flat_shape.trans placed.shape
  have tallies : ∀ index, (keyOf (order.foldl placeValues (keys, 0)).1 index).tally =
      (owners.count index, 0) := fun index =>
    (placed.tally index).trans ((numbering.tally index).trans (collected.counts index))
  have number : ∀ position (bound : position < order.length),
      (keyOf (order.foldl placeValues (keys, 0)).1 order[position]).flat_index = position :=
    fun position bound => (placed.number _).trans (numbering.numbered position bound)
  unfold groupValues
  split
  · have reached : ∀ index < table.keys.length, index ∈ order := sound.mem_order level
    have counted : ∀ index, (keyOf keys index).value_count = owners.count index := fun index =>
      congrArg Prod.fst ((numbering.tally index).trans (collected.counts index))
    have grouped : Grouped (order.foldl placeValues (keys, 0)).1 owners owners.length
        ((List.range values.length).foldl (groupValue owners)
          ((order.foldl placeValues (keys, 0)).1, fun _ => 0)) := by
      rw [lengths]
      apply Grouped.run (fun index => congrArg Prod.snd (tallies index)) _ _ _ le_rfl
      · intro first first_inside second second_inside different offset bound other other_bound
        rw [length_ownedValues, ← counted] at bound other_bound
        rw [shape.length] at first_inside second_inside
        exact placed.separate (reached _ first_inside) (reached _ second_inside) different bound
          other_bound
      · rw [shape.length]
        exact owned_lt collected.owned
    have whole := shape.trans grouped.shape
    constructor
    · exact whole.sound sound
    · exact whole.level level
    · exact fun position bound => (grouped.number _).trans (number position bound)
    · rfl
    · exact whole.owned sound collected.owned
    · exact fun index => (grouped.counts index).trans (congrArg Prod.fst (tallies index))
    · intro owner bound
      apply grouped.sources (fun index => congrArg Prod.fst (tallies index))
      rwa [← grouped.shape.length]
    · exact duplicates
  · constructor
    · exact shape.sound sound
    · exact shape.level level
    · exact number
    · rfl
    · exact shape.owned sound collected.owned
    · exact fun index => congrArg Prod.fst (tallies index)
    · intro owner _
      unfold BuildPlan.sources ownedValues
      dsimp only
      rw [lengths]
    · exact duplicates

/-! ### Room -/

/-- A list of values in good form, without two values of one name under one path. -/
structure WellFormed (kind : HiveKind) (values : List BuildValue) : Prop where
  each : ∀ value ∈ values, value.WellFormed kind
  distinct : values.Pairwise fun prior value =>
    ¬ (pathIdentity prior.key_path = pathIdentity value.key_path ∧
      asciiEqlIgnoreCase prior.name value.name = true)

theorem OwnedBy.identity {keys : List BuildKey} {first second : BuildValue} {owner : Nat}
    (owned : OwnedBy kind keys first owner) (other : OwnedBy kind keys second owner) :
    pathIdentity first.key_path = pathIdentity second.key_path := by
  obtain ⟨rest, parsed, _⟩ := owned.valid.path
  obtain ⟨other_rest, other_parsed, _⟩ := other.valid.path
  rw [pathIdentity, pathIdentity, parsed, other_parsed, Option.map_some, Option.map_some,
    walk_injective (owned.walked rest parsed) (other.walked other_rest other_parsed)]

theorem WellFormed.names_distinct (formed : WellFormed kind values) {keys : List BuildKey} (owned : List.Forall₂ (OwnedBy kind keys) values owners) :
    OwnedNamesDistinct values owners := by
  intro index inside prior before same
  have prior_inside := before.trans inside
  have lengths := owned.length_eq
  have own := owned.get inside (lengths ▸ inside)
  have prior_own := owned.get prior_inside (lengths ▸ prior_inside)
  rw [List.getD_eq_getElem _ _ (lengths ▸ prior_inside),
    List.getD_eq_getElem _ _ (lengths ▸ inside)] at same
  rw [List.get_eq_getElem, List.get_eq_getElem] at own prior_own
  dsimp only at own prior_own
  rw [same] at prior_own
  have distinct := List.pairwise_iff_getElem.mp formed.distinct prior index prior_inside inside
    before
  rw [List.getD_eq_getElem _ _ prior_inside, List.getD_eq_getElem _ _ inside]
  by_contra matching
  rw [Bool.not_eq_false] at matching
  exact distinct ⟨prior_own.identity own, matching⟩

/-- With room for all paths and values, a list in good form is planned. -/
theorem planHive_total (formed : WellFormed kind values)
    (keys : (keyPaths values).length ≤ scratch.keys)
    (order : (keyPaths values).length ≤ scratch.flat_key_order)
    (indices : values.length ≤ scratch.value_key_indices)
    (short : (keyPaths values).length ≤ invalid_index) :
    ∃ plan, planHive scratch kind values = .ok plan ∧ Covered (keyPaths values) plan.keys := by
  have root : ([] : List Bytes) ∈ keyPaths values := by
    rw [keyPaths, List.mem_dedup]
    exact (.head _)
  have some := List.length_pos_of_mem root
  have start : Collected scratch kind [] (rootTable, []) := Collected.start (by omega)
  have covered : Covered (keyPaths values) rootTable.keys := by
    intro index bound
    obtain rfl : index = 0 := Nat.lt_one_iff.mp bound
    exact ⟨[], root, rfl⟩
  obtain ⟨⟨table, owners⟩, added, covers⟩ := start.addValues_total covered keys formed.each
    fun value member rest front parsed leads => mem_keyPaths member parsed leads
  have collected := start.addValues added
  have few : table.keys.length ≤ (keyPaths values).length := covers.length_le
  obtain ⟨⟨flat, numbers⟩, flattened⟩ := collected.sound.keys.flattenFrom_total
    (show table.keys.length ≤ invalid_index by omega) (LevelOrder.start _ 0)
    collected.sound.keys.numbering_start
    (show table.keys.length ≤ scratch.flat_key_order by omega) scratch.flat_key_order
  refine ⟨groupValues scratch values owners flat numbers, ?_, ?_⟩
  · unfold planHive
    refine unit_bind_eq_ok.mpr ⟨reject_eq_ok.mpr (by omega), ?_⟩
    refine unit_bind_eq_ok.mpr ⟨reject_eq_ok.mpr (by omega), ?_⟩
    refine bind_eq_ok.mpr ⟨(table, owners), added, ?_⟩
    refine unit_bind_eq_ok.mpr ⟨?_, ?_⟩
    · exact validateBuildDuplicates_eq_ok.mpr (formed.names_distinct collected.owned)
    · exact bind_eq_ok.mpr ⟨(flat, numbers), flattened, rfl⟩
  · exact (groupValues_shape _ _ _ _ _).covered ((flattenKeys_shape flattened).covered covers)

end Plans

end R4OS.Registry
