import R4OS.Registry.BuildPaths

/-!
# Collecting values

The table of the builder while values are taken in one by one.  A value is refused for its own faults
or for want of room, and every accepted value has its key.
-/

namespace R4OS.Registry

open Hashing Text

def bucketHome (keys : List BuildKey) (index : Nat) : Nat :=
  (nameHash (keyOf keys index).parent (keyOf keys index).name).toNat

/-- The buckets hold every key but the root, and have room for as many as the capacity allows. -/
def Bucketed (capacity bucket_len : Nat) (table : KeyTable) : Prop :=
  bucket_len ≠ 0 → ∃ bits, bucket_len = 2 ^ bits ∧ capacity * 2 ≤ 2 ^ bits ∧
    Holds (2 ^ bits) (bucketHome table.keys) table.buckets (List.range' 1 (table.keys.length - 1))

structure TableSound (capacity bucket_len : Nat) (table : KeyTable) : Prop where
  keys : KeysSound table.keys
  room : table.keys.length ≤ capacity
  buckets : Bucketed capacity bucket_len table

section Table

variable {capacity bucket_len : Nat} {table : KeyTable} {parent : Nat} {name : Bytes}

theorem isChild_home {keys : List BuildKey} {index : Nat}
    (matching : isChild keys parent name index = true) :
    bucketHome keys index = (nameHash parent name).toNat := by
  obtain ⟨owner, same⟩ := isChild_iff.mp matching
  rw [bucketHome, owner, nameHash_congr same]

variable (sound : TableSound capacity bucket_len table)

include sound

theorem TableSound.items_lt {bits : Nat} (room : capacity * 2 ≤ 2 ^ bits) :
    (List.range' 1 (table.keys.length - 1)).length < 2 ^ bits := by
  have := sound.room
  have := sound.keys.nonempty
  rw [List.length_range']
  omega

theorem TableSound.findBuildChild :
    Registry.findBuildChild bucket_len table parent name = childNamed table.keys parent name := by
  unfold Registry.findBuildChild
  split
  · next hashed =>
      obtain ⟨bits, size, room, holds⟩ := sound.buckets hashed
      subst size
      obtain ⟨result, searched, found⟩ := holds.search_found (sound.items_lt room)
        (isChild table.keys parent name) (nameHash parent name).toNat
      rw [childSlot, searched]
      cases result with
      | inl index =>
        cases found with
        | item _ _ _ held matching _ =>
          obtain ⟨other, bound⟩ := mem_range'_one.mp (holds.sound _ _ held)
          exact (sound.keys.childNamed_iff.mpr ⟨other, bound, matching⟩).symm
      | inr slot =>
        have unmatched := holds.unmatched found fun index _ => isChild_home
        refine (childNamed_eq_none.mpr ?_).symm
        exact fun index bound other => unmatched index (mem_range'_one.mpr ⟨other, bound⟩)
  · rfl

theorem TableSound.addChild (inside : parent < table.keys.length) (valid : validKeyName name = true)
    (fresh : childNamed table.keys parent name = none) (room : table.keys.length < capacity) :
    TableSound capacity bucket_len (Registry.addChild bucket_len table parent name) := by
  constructor
  · exact sound.keys.withChild inside valid (childNamed_eq_none.mp fresh)
  · change (withChild table.keys parent name).length ≤ capacity
    rw [length_withChild]
    exact room
  · intro hashed
    obtain ⟨bits, size, enough, holds⟩ := sound.buckets hashed
    refine ⟨bits, size, enough, ?_⟩
    have home : bucketHome (withChild table.keys parent name) table.keys.length =
        (nameHash parent name).toNat := by
      rw [bucketHome, withChild_new_parent, withChild_new_name]
    have moved : Holds (2 ^ bits) (bucketHome (withChild table.keys parent name)) table.buckets
        (List.range' 1 (table.keys.length - 1)) := by
      apply holds.congr
      intro index member
      have bound := (mem_range'_one.mp member).2
      rw [bucketHome, withChild_parent bound, withChild_name bound, bucketHome]
    obtain ⟨result, searched, found⟩ := moved.search_found (sound.items_lt enough)
      (fun _ => false) (nameHash parent name).toNat
    have items : List.range' 1 ((withChild table.keys parent name).length - 1) =
        List.range' 1 (table.keys.length - 1) ++ [table.keys.length] := by
      rw [length_withChild, range'_one_succ sound.keys.nonempty]
    cases result with
    | inl index =>
      cases found with
      | item _ _ _ _ matching _ => cases matching
    | inr slot =>
      have added := moved.add (home ▸ found)
      change Holds _ (bucketHome (withChild table.keys parent name))
        (if bucket_len ≠ 0 then addBucket bucket_len table.buckets parent name table.keys.length
          else table.buckets) (List.range' 1 ((withChild table.keys parent name).length - 1))
      rw [if_pos hashed, addBucket, childSlot, size, searched, items]
      exact added

theorem TableSound.ensureChild_cases (inside : parent < table.keys.length) :
    (validKeyName name = false ∧
        ensureChild capacity bucket_len (table, parent) name = .error .BadName) ∨
      (validKeyName name = true ∧ ∃ child, childNamed table.keys parent name = some child ∧
        ensureChild capacity bucket_len (table, parent) name = .ok (table, child)) ∨
      (validKeyName name = true ∧ childNamed table.keys parent name = none ∧
        capacity ≤ table.keys.length ∧
        ensureChild capacity bucket_len (table, parent) name = .error .TooManyEntries) ∨
      (validKeyName name = true ∧ childNamed table.keys parent name = none ∧
        TableSound capacity bucket_len (Registry.addChild bucket_len table parent name) ∧
        ensureChild capacity bucket_len (table, parent) name =
          .ok (Registry.addChild bucket_len table parent name, table.keys.length)) := by
  unfold ensureChild
  cases valid : validKeyName name with
  | false => exact .inl ⟨rfl, rfl⟩
  | true =>
    right
    dsimp only
    rw [sound.findBuildChild]
    cases found : childNamed table.keys parent name with
    | some child => exact .inl ⟨rfl, child, rfl, rfl⟩
    | none =>
      right
      by_cases full : capacity ≤ table.keys.length
      · refine .inl ⟨rfl, rfl, full, ?_⟩
        simp [reject, full, bind, Except.bind]
      · refine .inr ⟨rfl, rfl, sound.addChild inside valid found (not_le.mp full), ?_⟩
        simp [reject, full, bind, Except.bind, pure, Except.pure]

end Table

/-- The counters of the values of a key. -/
def BuildKey.tally (key : BuildKey) : Nat × Nat := (key.value_count, key.value_cursor)

/-- What going down a path leaves behind. -/
structure Went (capacity bucket_len : Nat) (before after : KeyTable) (start finish : Nat)
    (components : List Bytes) : Prop where
  sound : TableSound capacity bucket_len after
  grown : Extends before.keys after.keys
  inside : finish < after.keys.length
  walked : walk after.keys start components = some finish
  counts : ∀ index, (keyOf after.keys index).tally = (keyOf before.keys index).tally

section Path

variable {capacity bucket_len : Nat} {table after : KeyTable} {parent start finish : Nat}

theorem withChild_tally (keys : List BuildKey) (parent : Nat) (name : Bytes) (index : Nat) :
    (keyOf (withChild keys parent name) index).tally = (keyOf keys index).tally := by
  rw [withChild, linkChild_field BuildKey.tally fun _ _ _ _ _ => rfl]
  rcases Nat.lt_trichotomy index keys.length with old | rfl | outside
  · rw [keyOf_append _ old]
  · rw [keyOf_append_length, keyOf_of_le le_rfl]
    rfl
  · rw [keyOf_of_le (by rw [List.length_append]; exact outside), keyOf_of_le (Nat.le_of_lt outside)]

theorem KeysSound.childNamed_new {keys : List BuildKey} {name : Bytes}
    (sound : KeysSound (Registry.withChild keys parent name)) (nonempty : 0 < keys.length) :
    childNamed (Registry.withChild keys parent name) parent name = some keys.length := by
  rw [sound.childNamed_iff, length_withChild, isChild_iff, withChild_new_parent,
    withChild_new_name]
  exact ⟨Nat.ne_of_gt nonempty, Nat.lt_succ_self _, rfl, asciiEqlIgnoreCase_self _⟩

theorem TableSound.ensureChild (sound : TableSound capacity bucket_len table)
    (inside : start < table.keys.length) {name : Bytes}
    (ensured : Registry.ensureChild capacity bucket_len (table, start) name =
      .ok (after, finish)) :
    validKeyName name = true ∧ Went capacity bucket_len table after start finish [name] := by
  rcases sound.ensureChild_cases inside with ⟨_, failed⟩ | ⟨valid, child, found, passed⟩ |
    ⟨_, _, _, failed⟩ | ⟨valid, fresh, longer, passed⟩
  · rw [failed] at ensured
    cases ensured
  · rw [passed] at ensured
    cases ensured
    refine ⟨valid, sound, Extends.refl _, (childNamed_of_eq_some found).2.1, ?_, fun _ => rfl⟩
    rw [walk_singleton, found]
  · rw [failed] at ensured
    cases ensured
  · rw [passed] at ensured
    cases ensured
    refine ⟨valid, longer, extends_withChild _ _ _, ?_, ?_, withChild_tally _ _ _⟩
    · change table.keys.length < (withChild table.keys start name).length
      rw [length_withChild]
      exact Nat.lt_succ_self _
    · rw [walk_singleton]
      exact longer.keys.childNamed_new sound.keys.nonempty

theorem TableSound.ensureChildren (sound : TableSound capacity bucket_len table)
    (inside : start < table.keys.length) {components : List Bytes}
    (ensured : components.foldlM (Registry.ensureChild capacity bucket_len) (table, start) =
      .ok (after, finish)) :
    (∀ component ∈ components, validKeyName component = true) ∧
      Went capacity bucket_len table after start finish components := by
  induction components generalizing table start with
  | nil =>
    cases ensured
    refine ⟨?_, sound, Extends.refl _, inside, rfl, fun _ => rfl⟩
    rintro component ⟨⟩
  | cons component components induction =>
    rw [List.foldlM_cons] at ensured
    obtain ⟨⟨between, next⟩, first, rest⟩ := bind_eq_ok.mp ensured
    obtain ⟨valid, went⟩ := sound.ensureChild inside first
    obtain ⟨others, further⟩ := induction went.sound went.inside rest
    refine ⟨List.forall_mem_cons.mpr ⟨valid, others⟩, further.sound,
      went.grown.trans further.grown, further.inside, ?_,
      fun index => (further.counts index).trans (went.counts index)⟩
    have moved := further.grown.walk further.sound.keys went.walked
    rw [← List.singleton_append, walk_append, moved]
    exact further.walked

/-! ### Room -/

def Covered (paths : List (List Bytes)) (keys : List BuildKey) : Prop :=
  ∀ index < keys.length, ∃ path ∈ paths, walk keys 0 path = some index

theorem Covered.length_le {paths : List (List Bytes)} {keys : List BuildKey}
    (covered : Covered paths keys) : keys.length ≤ paths.length := by
  have inside : List.range keys.length ⊆ paths.map fun path => (walk keys 0 path).getD 0 := by
    intro index member
    obtain ⟨path, listed, walked⟩ := covered index (List.mem_range.mp member)
    exact List.mem_map.mpr ⟨path, listed, by rw [walked]; rfl⟩
  have count := (List.nodup_range.subperm inside).length_le
  simpa using count

theorem folded_folded (components : List Bytes) : folded (folded components) = folded components := by
  have twice (ch : UInt8) : toUpper (toUpper ch) = toUpper ch := by
    by_cases lower : chr 'a' ≤ ch ∧ ch ≤ chr 'z'
    · have upper : toUpper ch = ch - 32 := if_pos lower
      have low : 97 ≤ ch.toNat := UInt8.le_iff_toNat_le.mp lower.1
      have high : ch.toNat ≤ 122 := UInt8.le_iff_toNat_le.mp lower.2
      have value : (ch - 32).toNat = ch.toNat - 32 :=
        UInt8.toNat_sub_of_le _ _ (UInt8.le_iff_toNat_le.mpr (show 32 ≤ ch.toNat by omega))
      rw [upper]
      apply if_neg
      rintro ⟨again, _⟩
      have : 97 ≤ (ch - 32).toNat := UInt8.le_iff_toNat_le.mp again
      omega
    · have same : toUpper ch = ch := if_neg lower
      rw [same, same]
  simp [folded, twice]

theorem TableSound.ensureChildren_total (sound : TableSound capacity bucket_len table)
    (inside : start < table.keys.length) {paths : List (List Bytes)}
    (covered : Covered paths table.keys) (room : paths.length ≤ capacity)
    {front components : List Bytes} (before : walk table.keys 0 front = some start)
    (listed : ∀ rest, rest ≠ [] → rest <+: components → folded (front ++ rest) ∈ paths)
    (valid : ∀ component ∈ components, validKeyName component = true) :
    ∃ after finish,
      components.foldlM (Registry.ensureChild capacity bucket_len) (table, start) =
        .ok (after, finish) ∧ Covered paths after.keys := by
  induction components generalizing table start front with
  | nil => exact ⟨table, start, rfl, covered⟩
  | cons component components induction =>
    obtain ⟨now, later⟩ := List.forall_mem_cons.mp valid
    have further : ∀ rest, rest ≠ [] → rest <+: components →
        folded (front ++ [component] ++ rest) ∈ paths := by
      intro rest _ leads
      rw [List.append_assoc]
      exact listed _ (by simp) (by simpa using leads)
    rw [List.foldlM_cons]
    rcases sound.ensureChild_cases inside with ⟨invalid, _⟩ | ⟨_, child, found, passed⟩ |
      ⟨_, fresh, full, _⟩ | ⟨_, fresh, longer, passed⟩
    · rw [invalid] at now
      cases now
    · rw [passed]
      apply induction sound (childNamed_of_eq_some found).2.1 covered _ further later
      rw [walk_append, before]
      exact walk_singleton.trans found
    all_goals
      have grown := sound.keys.withChild inside now (childNamed_eq_none.mp fresh)
      have walked : walk (withChild table.keys start component) 0 (front ++ [component]) =
          some table.keys.length := by
        rw [walk_append, (extends_withChild _ _ _).walk grown before]
        exact walk_singleton.trans (grown.childNamed_new sound.keys.nonempty)
      have covers : Covered paths (withChild table.keys start component) := by
        intro index bound
        rw [length_withChild] at bound
        rcases Nat.lt_succ_iff_lt_or_eq.mp bound with old | rfl
        · obtain ⟨path, member, found⟩ := covered index old
          exact ⟨path, member, (extends_withChild _ _ _).walk grown found⟩
        · refine ⟨_, listed [component] (by simp) (by simp), ?_⟩
          rw [walk_congr (folded_folded _), walked]
    · have count := covers.length_le
      rw [length_withChild] at count
      omega
    · rw [passed]
      apply induction longer _ covers walked further later
      change table.keys.length < (withChild table.keys start component).length
      rw [length_withChild]
      exact Nat.lt_succ_self _

end Path

/-- The root and the components of a path up to ASCII case. -/
def pathIdentity (path : Bytes) : Option (HiveKind × List Bytes) :=
  (parseRoot path).map fun parsed => (parsed.kind, folded (pathComponents parsed.rest))

structure BuildValue.WellFormed (kind : HiveKind) (value : BuildValue) : Prop where
  payload : validateValuePayload value.value_type value.data = .ok ()
  name : validValueName value.name = true
  path : ∃ rest, parseRoot value.key_path = some ⟨kind, rest⟩ ∧
    ∀ component ∈ pathComponents rest, validKeyName component = true

/-- A value and the key that its path leads to. -/
structure OwnedBy (kind : HiveKind) (keys : List BuildKey) (value : BuildValue) (owner : Nat) :
    Prop where
  valid : value.WellFormed kind
  inside : owner < keys.length
  walked : ∀ rest, parseRoot value.key_path = some ⟨kind, rest⟩ →
    walk keys 0 (pathComponents rest) = some owner

theorem OwnedBy.mono {kind : HiveKind} {before after : List BuildKey} {value : BuildValue}
    {owner : Nat} (owned : OwnedBy kind before value owner) (grown : Extends before after)
    (sound : KeysSound after) : OwnedBy kind after value owner :=
  ⟨owned.valid, lt_of_lt_of_le owned.inside grown.length,
    fun rest parsed => grown.walk sound (owned.walked rest parsed)⟩

structure Collected (scratch : BuildScratch) (kind : HiveKind) (values : List BuildValue)
    (state : KeyTable × List Nat) : Prop where
  sound : TableSound scratch.keys (keyBuckets scratch.keys) state.1
  owned : List.Forall₂ (OwnedBy kind state.1.keys) values state.2
  counts : ∀ index, (keyOf state.1.keys index).tally = (state.2.count index, 0)

section Values

variable {scratch : BuildScratch} {kind : HiveKind} {values : List BuildValue}
  {state next : KeyTable × List Nat} {value : BuildValue}

variable {capacity bucket_len : Nat} {paths : List (List Bytes)}

def rootTable : KeyTable where
  keys := [{}]
  buckets := fun _ => none

theorem rootTable_sound (room : 0 < capacity)
    (buckets : bucket_len ≠ 0 → ∃ bits, bucket_len = 2 ^ bits ∧ capacity * 2 ≤ 2 ^ bits) :
    TableSound capacity bucket_len rootTable := by
  have only : ∀ index < [({} : BuildKey)].length, index = 0 := by
    intro index inside
    exact Nat.lt_one_iff.mp inside
  constructor
  · constructor
    · exact Nat.one_pos
    · rfl
    · rfl
    · exact fun index inside other => absurd (only index inside) other
    · exact fun index inside other => absurd (only index inside) other
    · exact fun first inside _ _ other => absurd (only first inside) other
    · intro _ parent inside
      obtain rfl := only parent inside
      exact ⟨rfl, rfl, rfl⟩
  · exact room
  · intro hashed
    obtain ⟨bits, size, enough⟩ := buckets hashed
    exact ⟨bits, size, enough, Holds.empty _ _⟩

theorem keyBuckets_pow (hashed : keyBuckets capacity ≠ 0) :
    ∃ bits, keyBuckets capacity = 2 ^ bits ∧ capacity * 2 ≤ 2 ^ bits := by
  unfold keyBuckets at hashed ⊢
  split
  · next small => exact bucketCount_pow (by omega)
  · next large => rw [if_neg large] at hashed; exact absurd rfl hashed

theorem Collected.start (room : scratch.keys ≠ 0) : Collected scratch kind [] (rootTable, []) := by
  constructor
  · exact rootTable_sound (Nat.pos_of_ne_zero room) keyBuckets_pow
  · exact List.Forall₂.nil
  · intro index
    cases index with
    | zero | succ index => rfl

def countValue (keys : List BuildKey) (owner : Nat) : List BuildKey :=
  keys.modify owner fun key => { key with value_count := key.value_count + 1 }

theorem countValue_shape (keys : List BuildKey) (owner : Nat) :
    SameShape keys (countValue keys owner) :=
  SameShape.modify fun _ => rfl

theorem SameShape.walk {before after : List BuildKey} (same : SameShape before after)
    (start : Nat) (components : List Bytes) :
    Registry.walk after start components = Registry.walk before start components := by
  have child : childNamed after = childNamed before := by
    funext parent name
    unfold childNamed isChild
    simp [same.length, same.parent, same.name]
  unfold Registry.walk
  rw [child]

theorem SameShape.covered {before after : List BuildKey} (same : SameShape before after) (covered : Covered paths before) : Covered paths after := by
  intro index bound
  obtain ⟨path, member, walked⟩ := covered index (same.length ▸ bound)
  exact ⟨path, member, (same.walk _ _).trans walked⟩

theorem SameShape.tableSound {table : KeyTable} {keys : List BuildKey}
    (same : SameShape table.keys keys) (sound : TableSound capacity bucket_len table) :
    TableSound capacity bucket_len { table with keys } := by
  constructor
  · exact same.sound sound.keys
  · exact same.length.le.trans sound.room
  · intro hashed
    obtain ⟨bits, size, enough, holds⟩ := sound.buckets hashed
    refine ⟨bits, size, enough, ?_⟩
    dsimp only
    rw [same.length]
    apply holds.congr
    intro index _
    rw [bucketHome, same.parent, same.name, bucketHome]

theorem ensureBuildKey_eq_ok {table after : KeyTable} {path : Bytes} {owner : Nat}
    (ensured : ensureBuildKey capacity bucket_len kind table path = .ok (after, owner)) :
    ∃ rest, parseRoot path = some ⟨kind, rest⟩ ∧
      (pathComponents rest).foldlM (ensureChild capacity bucket_len) (table, 0) =
        .ok (after, owner) := by
  unfold ensureBuildKey at ensured
  cases parsed : parseRoot path with
  | none =>
    rw [parsed] at ensured
    cases ensured
  | some root =>
    rw [parsed] at ensured
    obtain ⟨matching, ensured⟩ := unit_bind_eq_ok.mp ensured
    rw [reject_eq_ok, not_not] at matching
    exact ⟨root.rest, by rw [← matching], ensured⟩

theorem Collected.addValue (collected : Collected scratch kind values state)
    (added : Registry.addValue scratch kind state value = .ok next) :
    Collected scratch kind (values ++ [value]) next := by
  unfold Registry.addValue at added
  obtain ⟨payload, added⟩ := unit_bind_eq_ok.mp added
  obtain ⟨name, added⟩ := unit_bind_eq_ok.mp added
  obtain ⟨⟨table, owner⟩, ensured, finished⟩ := bind_eq_ok.mp added
  cases finished
  obtain ⟨rest, parsed, children⟩ := ensureBuildKey_eq_ok ensured
  obtain ⟨valid, went⟩ := collected.sound.ensureChildren collected.sound.keys.nonempty children
  have shape := countValue_shape table.keys owner
  have sound := shape.tableSound went.sound
  have name_valid : validValueName value.name = true := by
    simpa using reject_eq_ok.mp name
  have grown : Extends state.1.keys (countValue table.keys owner) := went.grown.trans shape.extends
  constructor
  · exact sound
  · apply List.rel_append
    · exact collected.owned.imp fun _ _ owned => owned.mono grown sound.keys
    · refine List.Forall₂.cons ⟨⟨payload, name_valid, rest, parsed, valid⟩, ?_, ?_⟩ List.Forall₂.nil
      · exact shape.length.symm ▸ went.inside
      · intro other again
        obtain rfl : rest = other := congrArg ParsedRoot.rest (Option.some.inj (parsed.symm.trans again))
        exact (shape.walk _ _).trans went.walked
  · intro index
    have counted := (went.counts index).trans (collected.counts index)
    change (keyOf (countValue table.keys owner) index).tally = _
    rw [countValue, keyOf_modify _ went.inside, List.count_append, List.count_singleton]
    by_cases same : owner = index
    · rw [if_pos same, if_pos (by simp [same])]
      simp only [BuildKey.tally, Prod.mk.injEq] at counted ⊢
      exact ⟨congrArg (· + 1) counted.1, counted.2⟩
    · rw [if_neg same, if_neg (by simp [same])]
      exact counted

theorem Collected.addValues (collected : Collected scratch kind values state)
    {more : List BuildValue}
    (added : more.foldlM (Registry.addValue scratch kind) state = .ok next) :
    Collected scratch kind (values ++ more) next := by
  induction more generalizing values state with
  | nil =>
    cases added
    rwa [List.append_nil]
  | cons value more induction =>
    rw [List.foldlM_cons] at added
    obtain ⟨between, first, rest⟩ := bind_eq_ok.mp added
    rw [← List.singleton_append, ← List.append_assoc]
    exact induction (collected.addValue first) rest

/-! ### Room for all paths -/

/-- The paths of all keys that a list of values needs, up to ASCII case. -/
def keyPaths (values : List BuildValue) : List (List Bytes) :=
  ([] :: values.flatMap fun value =>
    ((pathIdentity value.key_path).elim [] fun identity => identity.2).inits).dedup

theorem mem_keyPaths {rest : Bytes} {front : List Bytes} (member : value ∈ values)
    (parsed : parseRoot value.key_path = some ⟨kind, rest⟩) (leads : front <+: pathComponents rest) :
    folded front ∈ keyPaths values := by
  rw [keyPaths, List.mem_dedup]
  refine .tail _ (List.mem_flatMap.mpr ⟨value, member, ?_⟩)
  rw [List.mem_inits, pathIdentity, parsed]
  exact leads.map _

theorem Collected.addValue_total (collected : Collected scratch kind values state) (covered : Covered paths state.1.keys)
    (room : paths.length ≤ scratch.keys) (valid : value.WellFormed kind)
    (listed : ∀ rest front, parseRoot value.key_path = some ⟨kind, rest⟩ →
      front <+: pathComponents rest → folded front ∈ paths) :
    ∃ next, Registry.addValue scratch kind state value = .ok next ∧ Covered paths next.1.keys := by
  obtain ⟨rest, parsed, components⟩ := valid.path
  obtain ⟨table, owner, ensured, covers⟩ := collected.sound.ensureChildren_total
    collected.sound.keys.nonempty covered room (walk_nil 0)
    (fun front _ leads => listed rest front parsed leads) components
  refine ⟨_, unit_bind_eq_ok.mpr ⟨valid.payload, unit_bind_eq_ok.mpr ⟨?_, bind_eq_ok.mpr
    ⟨(table, owner), ?_, rfl⟩⟩⟩, ?_⟩
  · rw [reject_eq_ok, valid.name]
    simp
  · unfold ensureBuildKey
    rw [parsed]
    exact unit_bind_eq_ok.mpr ⟨reject_eq_ok.mpr (not_not.mpr rfl), ensured⟩
  · exact (countValue_shape table.keys owner).covered covers

theorem Collected.addValues_total (collected : Collected scratch kind values state) (covered : Covered paths state.1.keys)
    (room : paths.length ≤ scratch.keys) {more : List BuildValue}
    (valid : ∀ value ∈ more, value.WellFormed kind)
    (listed : ∀ value ∈ more, ∀ rest front, parseRoot value.key_path = some ⟨kind, rest⟩ →
      front <+: pathComponents rest → folded front ∈ paths) :
    ∃ next, more.foldlM (Registry.addValue scratch kind) state = .ok next ∧
      Covered paths next.1.keys := by
  induction more generalizing values state with
  | nil => exact ⟨state, rfl, covered⟩
  | cons value more induction =>
    obtain ⟨now, later⟩ := List.forall_mem_cons.mp valid
    obtain ⟨first, others⟩ := List.forall_mem_cons.mp listed
    obtain ⟨between, added, covers⟩ := collected.addValue_total covered room now first
    rw [List.foldlM_cons, added]
    exact induction (collected.addValue added) covers later others

end Values

end R4OS.Registry
