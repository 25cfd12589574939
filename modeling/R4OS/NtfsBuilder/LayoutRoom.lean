import R4OS.NtfsBuilder.IndexSize
import R4OS.NtfsBuilder.Preparation

/-!
# Room for the layout

The clusters that a builder needs follow from its tree.  When the volume has them, the layout takes
them one behind another.
-/

namespace R4OS.NtfsBuilder

open Text Block NtfsFormat
open CLayout (alignUp)

/-- The nodes with their records and the sizes of their data. -/
def Builder.sizedNodes (builder : Builder) : List Node :=
  (numberNodes builder.nodes).map fun node => { node with data_clusters := node.neededClusters }

/-- The lengths of the names in a directory, in their order. -/
def Builder.directoryLengths (builder : Builder) (place : Nat) (node : Node) : List Nat :=
  valueLengths (builder.directoryKeys builder.sizedNodes place node)

def Builder.indexBlocks (builder : Builder) (place : Nat) (node : Node) : Nat :=
  if node.is_dir then indexBlockCount (builder.directoryLengths place node) else 0

/-- The index blocks that nodes need from a place on. -/
def Builder.indexBlocksFrom (builder : Builder) : Nat → List Node → List Nat
  | _, [] => []
  | place, node :: rest =>
    builder.indexBlocks place node :: builder.indexBlocksFrom (place + 1) rest

def Builder.systemClusters (builder : Builder) : Nat :=
  552 + builder.bitmapClusters + builder.sdsClusters + builder.mftClusters

def Builder.dataClusters (builder : Builder) : Nat :=
  (builder.nodes.tail.map Node.neededClusters).sum

/-- The clusters in front of the index blocks of a node. -/
def Builder.indexStart (builder : Builder) (place : Nat) : Nat :=
  builder.systemClusters + builder.dataClusters +
    ((builder.indexBlocksFrom 0 builder.nodes).take place).sum

def Builder.neededClusters (builder : Builder) : Nat :=
  builder.systemClusters + builder.dataClusters + (builder.indexBlocksFrom 0 builder.nodes).sum

/-- The system files one behind another. -/
def Builder.systemLayout (builder : Builder) : SystemLayout where
  lcn_boot := 0
  lcn_logfile := 2
  lcn_attrdef := 514
  lcn_bitmap := 515
  lcn_upcase := 515 + builder.bitmapClusters
  lcn_sds := 547 + builder.bitmapClusters
  lcn_sdh := 547 + builder.bitmapClusters + builder.sdsClusters
  lcn_sii := 548 + builder.bitmapClusters + builder.sdsClusters
  lcn_mft := 549 + builder.bitmapClusters + builder.sdsClusters
  lcn_mft_bitmap := 549 + builder.bitmapClusters + builder.sdsClusters + builder.mftClusters
  lcn_mftmirr := 551 + builder.bitmapClusters + builder.sdsClusters + builder.mftClusters

section Taking

variable {builder : Builder} {next_lcn total_clusters clusters : Nat}

theorem take_ok (room : next_lcn + clusters ≤ total_clusters) :
    take next_lcn total_clusters clusters = .ok (next_lcn, next_lcn + clusters) := by
  rw [take, if_neg (by omega)]

theorem takeSystem_ok (room : builder.systemClusters ≤ builder.totalClusters) :
    builder.takeSystem = .ok (builder.systemLayout, builder.systemClusters) := by
  unfold Builder.systemClusters at room
  have log : LOGFILE_BYTES / CLUSTER = 512 := rfl
  have upcase : UPCASE_BYTES / CLUSTER = 32 := rfl
  have bitmap : mftBitmapClusters = 2 := rfl
  unfold Builder.takeSystem Builder.systemLayout Builder.systemClusters
  rw [log, upcase, bitmap]
  generalize builder.bitmapClusters = bitmap_clusters at room ⊢
  generalize builder.sdsClusters = sds_clusters at room ⊢
  generalize builder.mftClusters = mft_clusters at room ⊢
  simp (disch := omega) only [take_ok, bind, Except.bind, pure, Except.pure, Except.ok.injEq,
    Prod.mk.injEq, SystemLayout.mk.injEq, true_and]
  omega

structure DataPlaced (total_clusters : Nat) (node placed : Node) : Prop where
  same : placed = { node with
    data_clusters := node.neededClusters
    data_lcn := placed.data_lcn }
  inside : node.neededClusters ≠ 0 →
    placed.data_lcn + node.neededClusters ≤ total_clusters

theorem takeData_ok {nodes : List Node} (unplaced : ∀ node ∈ nodes, node.data_clusters = 0)
    (room : next_lcn + (nodes.map Node.neededClusters).sum ≤ total_clusters) :
    ∃ placed, takeData next_lcn total_clusters nodes =
        .ok (placed, next_lcn + (nodes.map Node.neededClusters).sum) ∧
      List.Forall₂ (DataPlaced total_clusters) nodes placed := by
  induction nodes generalizing next_lcn with
  | nil => exact ⟨[], rfl, .nil⟩
  | cons node rest induction =>
    rw [List.forall_mem_cons] at unplaced
    rw [List.map_cons, List.sum_cons] at room ⊢
    obtain ⟨placed, taken, each⟩ := @induction (next_lcn + node.neededClusters) unplaced.2
      (by omega)
    rw [takeData]
    split
    · next none_needed =>
      rw [none_needed, Nat.add_zero] at taken
      rw [taken, none_needed, Nat.zero_add]
      refine ⟨_, rfl, .cons ⟨?_, fun some_needed => absurd none_needed some_needed⟩ each⟩
      rw [none_needed, ← unplaced.1]
    · rw [take_ok (by omega)]
      dsimp only
      rw [taken, Nat.add_assoc]
      exact ⟨_, rfl, .cons ⟨rfl, fun _ => by dsimp only; omega⟩ each⟩

end Taking

section Keys

variable {builder : Builder} {all placed : List Node} {node : Node} {place total_clusters : Nat}

theorem utf16Of_length (name : Bytes) : (utf16Of name).length = name.length * 2 :=
  flatMap_length fun _ _ => rfl

theorem makeFileNameKey_length (timestamp : Nat) (name : Bytes) (record seq base_flags : Nat)
    (is_dir : Bool) (alloc_size data_size namespace_ : Nat) :
    (makeFileNameKey timestamp name record seq base_flags is_dir alloc_size data_size
      namespace_).length = 8 + (0x42 + name.length * 2) := by
  have units : (name.flatMap fun character => [character, 0]).length = name.length * 2 :=
    utf16Of_length name
  simp only [makeFileNameKey, List.length_append, leBytes_length, zeros_length, units]
  omega

theorem isFileNameKey_make {name : Bytes} (named : 1 ≤ name.length ∧ name.length ≤ 255)
    (timestamp record seq base_flags : Nat) (is_dir : Bool)
    (alloc_size data_size namespace_ : Nat) :
    IsFileNameKey (makeFileNameKey timestamp name record seq base_flags is_dir alloc_size data_size
      namespace_) := by
  refine ⟨name.length, named.1, named.2, ?_, ?_⟩
  · rw [makeFileNameKey_length, Nat.add_assoc]
  · unfold makeFileNameKey
    generalize (if is_dir then base_flags ||| 0x10000000 else base_flags) = flags
    exact readLe_field (leBytes 8 (FileReference.pack ⟨record, seq⟩) ++
      leBytes 8 (FileReference.pack ⟨5, 5⟩) ++ leBytes 8 timestamp ++ leBytes 8 timestamp ++
      leBytes 8 timestamp ++ leBytes 8 timestamp ++ leBytes 8 alloc_size ++ leBytes 8 data_size ++
      leBytes 4 flags ++ zeros 4) _ (by simp only [List.append_assoc]; rfl)
      (by simp [leBytes_length, zeros_length])
      (lt_of_le_of_lt named.2 (by decide))

theorem sortKeys_perm (upcase : Bytes) (keys : List Bytes) : (sortKeys upcase keys).Perm keys :=
  List.perm_insertionSort _ _

theorem systemKeys_names : ∀ key ∈ builder.systemKeys, IsFileNameKey key := by
  intro key member
  rw [Builder.systemKeys, List.mem_append, List.mem_singleton, List.mem_map] at member
  obtain ⟨sys, inside, rfl⟩ | rfl := member
  · refine isFileNameKey_make ?_ _ _ _ _ _ _ _ _
    unfold Builder.systemNames at inside
    simp only [List.mem_cons, List.not_mem_nil, or_false] at inside
    rcases inside with rfl | rfl | rfl | rfl | rfl | rfl | rfl | rfl | rfl | rfl | rfl <;>
      exact ⟨by dsimp only; decide, by dsimp only; decide⟩
  · exact isFileNameKey_make ⟨by decide, by decide⟩ _ _ _ _ _ _ _ _

theorem directoryKeys_names (named : ∀ child ∈ node.children, ∀ found ∈ all[child]?,
    validName found.name = true) :
    ∀ key ∈ builder.directoryKeys all place node, IsFileNameKey key := by
  intro key member
  have inside := (sortKeys_perm _ _).subset member
  rw [List.mem_append] at inside
  obtain system | child_key := inside
  · split at system
    · exact systemKeys_names key system
    · cases system
  · obtain ⟨child, child_member, rfl⟩ := List.mem_map.mp child_key
    obtain ⟨number, number_member, found⟩ := List.mem_filterMap.mp child_member
    exact isFileNameKey_make (validName_length (named number number_member child found))
      _ _ _ _ _ _ _ _

theorem directoryKeys_length :
    (builder.directoryKeys all place node).length ≤ 12 + node.children.length := by
  rw [Builder.directoryKeys, (sortKeys_perm _ _).length_eq, List.length_append, List.length_map]
  have fewer := List.length_filterMap_le (all[·]?) node.children
  split
  · have system : builder.systemKeys.length = 12 := rfl
    omega
  · rw [List.length_nil]
    omega

theorem directoryKeys_placed {sized : List Node} (same : sized.map (fun node => { node with
    data_lcn := 0 }) = all.map fun node => { node with data_lcn := 0 }) :
    builder.directoryKeys sized place node = builder.directoryKeys all place node := by
  have keys (nodes : List Node) :
      (node.children.filterMap (nodes[·]?)).map (Node.key builder.timestamp) =
        (node.children.filterMap ((nodes.map fun node => { node with data_lcn := 0 })[·]?)).map
          (Node.key builder.timestamp) := by
    rw [List.map_filterMap, List.map_filterMap]
    refine List.filterMap_congr fun child _ => ?_
    rw [List.getElem?_map]
    cases nodes[child]? <;> rfl
  rw [Builder.directoryKeys, Builder.directoryKeys, keys sized, keys all, same]

end Keys

/-- An index of names of some lengths, with its blocks at a place. -/
structure IndexRoom (lengths : List Nat) (lcn : Nat) (index : DirIndex) : Prop where
  count : index.block_count = indexBlockCount lengths
  bounded : index.block_count ≤ MAX_INDEX_BLOCKS
  resident : index.block_count = 0 → index.root_has_children = false ∧
    index.resident_entries.length = residentLength lengths + 0x10
  blocks : index.block_count ≠ 0 → index.root_has_children = true ∧ index.lcn = lcn ∧
    index.blocks.length = index.block_count * INDEX_BLOCK

section Indexes

variable {record next_lcn total_clusters : Nat} {keys : List Bytes}

theorem residentTotal_eq (keys : List Bytes) :
    residentTotal keys = residentLength (valueLengths keys) := by
  rw [residentTotal, residentLength, valueLengths, List.map_map]
  rfl

theorem residentLength_sorted (upcase : Bytes) (keys : List Bytes) :
    residentLength (valueLengths (sortKeys upcase keys)) = residentLength (valueLengths keys) :=
  ((sortKeys_perm upcase keys).map _ |>.map _).sum_nat

theorem residentIndex_length (long : ∀ key ∈ keys, 8 ≤ key.length) :
    (residentIndex keys).length = residentTotal keys + 0x10 := by
  have entries : (keys.flatMap fun key => writeEntry ⟨key, none⟩).length = residentTotal keys := by
    rw [List.length_flatMap]
    exact congrArg List.sum (List.map_congr_left fun key member =>
      @writeEntry_length ⟨key, none⟩ (long key member))
  rw [residentIndex, List.length_append, entries, writeEndEntry_length]
  rfl

theorem sized_flatten {finished : List Bytes}
    (sized : ∀ bytes ∈ finished, bytes.length = INDEX_BLOCK) :
    finished.flatten.length = finished.length * INDEX_BLOCK := by
  have length := @flatMap_length INDEX_BLOCK _ id finished sized
  rwa [List.flatMap_id] at length

theorem levelBlocks_pos (depth_guard : Nat) (has_child : Bool) (lengths : List Nat) :
    0 < levelBlocks (depth_guard + 1) has_child lengths := by
  rw [levelBlocks]
  omega

theorem assembleIndex_ok (names : ∀ key ∈ keys, IsFileNameKey key) (few : keys.length ≤ 4095)
    (room : next_lcn + indexBlockCount (valueLengths keys) ≤ total_clusters) :
    ∃ index, assembleIndex record keys next_lcn total_clusters =
        .ok (index, next_lcn + indexBlockCount (valueLengths keys)) ∧
      IndexRoom (valueLengths keys) next_lcn index := by
  have total := residentTotal_eq keys
  have patched : ∀ key ∈ keys.map (patchParent record), ShortKey key := by
    intro key member
    obtain ⟨unpatched, inside, rfl⟩ := List.mem_map.mp member
    have long := (names unpatched inside).long
    rw [ShortKey, patchParent_length long.1]
    omega
  unfold assembleIndex
  dsimp only
  rw [residentTotal_patch names]
  split
  · next fits =>
    have none_needed : indexBlockCount (valueLengths keys) = 0 := by
      rw [indexBlockCount, ← total, if_pos fits]
    rw [none_needed]
    refine ⟨_, rfl, none_needed.symm, Nat.zero_le _, fun _ => ⟨rfl, ?_⟩,
      fun some_blocks => absurd rfl some_blocks⟩
    dsimp only
    rw [residentIndex_length fun key member => (patched key member).1, residentTotal_patch names,
      total]
  · next spills =>
    have needed : indexBlockCount (valueLengths keys) =
        levelBlocks 8 false (valueLengths keys) := by
      rw [indexBlockCount, ← total, if_neg spills]
    have entry_keys : ((keys.map (patchParent record)).map fun key =>
        Trees.Entry.mk key none).map Trees.Entry.key = keys.map (patchParent record) := by
      rw [List.map_map]
      exact List.map_id' _
    have short : ShortNames (valueLengths keys) := by
      intro length member
      obtain ⟨key, inside, rfl⟩ := List.mem_map.mp member
      have long := (names key inside).long
      omega
    have some_keys : keys ≠ [] := by
      rintro rfl
      exact spills (by decide)
    have fewer := @levelBlocks_le false _ 8 short
    have lengths_length : (valueLengths keys).length = keys.length := List.length_map _
    have state := scanned_start patched
    obtain ⟨after, top_vcn, built, count⟩ := buildLevels_succeeds state
      (by rwa [ne_eq, List.map_eq_nil_iff, List.map_eq_nil_iff])
      (by rw [List.length_map, List.length_map]; exact lt_of_le_of_lt few (by decide))
      (show List.length [] + levelBlocks 8 false (valueLengths (((keys.map (patchParent record)).map
          fun key => Trees.Entry.mk key none).map Trees.Entry.key)) ≤ MAX_INDEX_BLOCKS by
        rw [entry_keys, valueLengths_patch names, List.length_nil, MAX_INDEX_BLOCKS]
        omega)
    obtain ⟨reads, top, shelved, -⟩ := buildLevels_tree state built
    have after_length : after.length = indexBlockCount (valueLengths keys) := by
      rw [count, needed]
      change List.length [] + levelBlocks 8 false _ = _
      rw [entry_keys, valueLengths_patch names, List.length_nil, Nat.zero_add]
    have bounded : after.length ≤ MAX_INDEX_BLOCKS := by
      rw [after_length, needed, MAX_INDEX_BLOCKS]
      omega
    have positive : 0 < after.length := by
      rw [after_length, needed]
      exact levelBlocks_pos _ _ _
    rw [built]
    dsimp only
    rw [if_neg (Nat.not_lt.mpr bounded), after_length, take_ok room]
    refine ⟨_, rfl, rfl, after_length ▸ bounded, fun none_needed => ?_, fun _ => ⟨rfl, rfl, ?_⟩⟩
    · dsimp only at none_needed
      omega
    · dsimp only
      rw [sized_flatten shelved.sized, after_length]

theorem buildDirIndexes_ok {builder : Builder} {all nodes : List Node} {place : Nat}
    (same : ∀ place node, builder.directoryKeys all place node =
      builder.directoryKeys builder.sizedNodes place node)
    (named : ∀ node ∈ nodes, ∀ child ∈ node.children, ∀ found ∈ all[child]?,
      validName found.name = true)
    (few : ∀ node ∈ nodes, node.children.length ≤ 4083)
    (room : next_lcn + (builder.indexBlocksFrom place nodes).sum ≤ total_clusters) :
    ∃ placed, builder.buildDirIndexes all total_clusters place next_lcn nodes =
        .ok (placed, next_lcn + (builder.indexBlocksFrom place nodes).sum) ∧
      placed.length = nodes.length ∧
      ∀ (number : Nat) (node : Node), nodes[number]? = some node → ∃ index,
        placed[number]? = some { node with index := index } ∧
        (node.is_dir = true → IndexRoom (builder.directoryLengths (place + number) node)
          (next_lcn + ((builder.indexBlocksFrom place nodes).take number).sum) index) := by
  induction nodes generalizing place next_lcn with
  | nil => exact ⟨[], rfl, rfl, fun _ _ found => by cases found⟩
  | cons node rest induction =>
    rw [List.forall_mem_cons] at named few
    rw [Builder.indexBlocksFrom, List.sum_cons] at room ⊢
    obtain ⟨placed, built, length, each⟩ :=
      @induction (next_lcn + builder.indexBlocks place node) (place + 1) named.2 few.2 (by omega)
    have later (number : Nat) (other : Node) (found : rest[number]? = some other) :
        ∃ index, placed[number]? = some { other with index := index } ∧
          (other.is_dir = true →
            IndexRoom (builder.directoryLengths (place + (number + 1)) other)
              (next_lcn + ((builder.indexBlocks place node ::
                builder.indexBlocksFrom (place + 1) rest).take (number + 1)).sum) index) := by
      obtain ⟨index, present, index_room⟩ := each number other found
      refine ⟨index, present, fun directory => ?_⟩
      have moved := index_room directory
      rw [List.take_succ_cons, List.sum_cons]
      rwa [Nat.add_assoc place, Nat.add_comm 1, Nat.add_assoc next_lcn] at moved
    rw [Builder.buildDirIndexes]
    split
    · next directory =>
      have needed : builder.indexBlocks place node =
          indexBlockCount (valueLengths (builder.directoryKeys all place node)) := by
        rw [Builder.indexBlocks, if_pos directory, Builder.directoryLengths, same]
      have keys_few : (builder.directoryKeys all place node).length ≤ 4095 := by
        have length := @directoryKeys_length builder all node place
        have children := few.1
        omega
      obtain ⟨index, assembled, index_room⟩ := @assembleIndex_ok node.record next_lcn
        total_clusters _ (directoryKeys_names named.1) keys_few (by omega)
      rw [← needed] at assembled
      rw [assembled]
      dsimp only
      rw [built]
      refine ⟨_, by rw [Nat.add_assoc], by rw [List.length_cons, List.length_cons, length], ?_⟩
      intro number other found
      cases number with
      | zero =>
        cases found
        refine ⟨index, rfl, fun _ => ?_⟩
        rw [Builder.directoryLengths, ← same]
        exact index_room
      | succ number => exact later number other found
    · next no_directory =>
      have none_needed : builder.indexBlocks place node = 0 := by
        rw [Builder.indexBlocks, if_neg no_directory]
      simp only [none_needed, Nat.add_zero] at built
      rw [built]
      refine ⟨_, by rw [none_needed, Nat.zero_add], by
        rw [List.length_cons, List.length_cons, length], ?_⟩
      intro number other found
      cases number with
      | zero =>
        cases found
        exact ⟨node.index, rfl, fun directory => absurd directory no_directory⟩
      | succ number => exact later number other found

end Indexes

structure PlacedNode (builder : Builder) (place : Nat) (node placed : Node) : Prop where
  same : placed = { node with
    record := placed.record
    data_clusters := node.neededClusters
    data_lcn := placed.data_lcn
    index := placed.index }
  record : 0 < place → placed.record = FIRST_USER_RECORD + (place - 1)
  inside : node.neededClusters ≠ 0 →
    placed.data_lcn + node.neededClusters ≤ builder.totalClusters
  index : node.is_dir = true → IndexRoom (builder.directoryLengths place node)
    (builder.indexStart place) placed.index

/-- A layout of which every node has its place. -/
structure LaidOut (builder : Builder) (layout : Layout) : Prop where
  system : layout.system = builder.systemLayout
  used : layout.used_clusters = builder.neededClusters
  length : layout.nodes.length = builder.nodes.length
  nodes : ∀ (place : Nat) (node : Node), builder.nodes[place]? = some node →
    ∃ placed, layout.nodes[place]? = some placed ∧ PlacedNode builder place node placed

section Layouts

variable {builder : Builder}

theorem le_growRecords (needed records : Nat) : needed ≤ growRecords needed records := by
  fun_induction growRecords needed records with
  | case1 records exceeds induction => exact induction
  | case2 records fits => exact Nat.le_of_not_lt fits

theorem indexBlocksFrom_congr {first second : List Node} {place : Nat}
    (same : List.Forall₂ (fun left right : Node => left.is_dir = right.is_dir ∧
      left.children = right.children) first second) :
    builder.indexBlocksFrom place first = builder.indexBlocksFrom place second := by
  induction same generalizing place with
  | nil => rfl
  | cons equal _ induction =>
    rw [Builder.indexBlocksFrom, Builder.indexBlocksFrom, induction, Builder.indexBlocks,
      Builder.indexBlocks, Builder.directoryLengths, Builder.directoryLengths,
      Builder.directoryKeys, Builder.directoryKeys, equal.1, equal.2]

theorem numberNodes_getElem? (nodes : List Node) (place : Nat) :
    (numberNodes nodes)[place]? = nodes[place]?.map fun node =>
      if place = 0 then node else { node with record := FIRST_USER_RECORD + (place - 1) } := by
  rw [numberNodes, List.getElem?_mapIdx]

theorem takeData_same {nodes placed : List Node} {total_clusters : Nat}
    (each : List.Forall₂ (DataPlaced total_clusters) nodes placed) :
    placed.map (fun node => { node with data_lcn := 0 }) =
      nodes.map fun node => { node with data_clusters := node.neededClusters, data_lcn := 0 } := by
  induction each with
  | nil => rfl
  | @cons node user _ _ placed _ induction =>
    rw [List.map_cons, List.map_cons, induction, placed.same]

theorem forall₂_getElem? {Item Other : Type} {relation : Item → Other → Prop} {items : List Item}
    {others : List Other} (each : List.Forall₂ relation items others) {place : Nat} {item : Item}
    (found : items[place]? = some item) :
    ∃ other, others[place]? = some other ∧ relation item other := by
  induction each generalizing place with
  | nil => cases found
  | @cons head other _ _ related _ induction =>
    cases place with
    | zero =>
      cases found
      exact ⟨other, rfl, related⟩
    | succ place => exact induction found

theorem numberNodes_needed (nodes : List Node) :
    (numberNodes nodes).map Node.neededClusters = nodes.map Node.neededClusters := by
  apply List.ext_getElem?
  intro place
  rw [List.getElem?_map, List.getElem?_map, numberNodes_getElem?, Option.map_map]
  congr 1
  funext node
  rw [Function.comp_apply]
  split <;> rfl

theorem mem_numberNodes {nodes : List Node} {numbered : Node}
    (member : numbered ∈ numberNodes nodes) :
    ∃ node ∈ nodes, numbered = { node with record := numbered.record } := by
  obtain ⟨place, found⟩ := List.mem_iff_getElem?.mp member
  rw [numberNodes_getElem?] at found
  obtain ⟨node, present, equal⟩ := Option.map_eq_some_iff.mp found
  refine ⟨node, List.mem_of_getElem? present, ?_⟩
  split at equal <;> rw [← equal]

theorem neededClusters_directory {node : Node} (directory : node.is_dir = true) :
    node.neededClusters = 0 := by
  rw [Node.neededClusters, if_pos (.inl directory)]

theorem takeLayout_ok (tree : ValidTree builder) (few : builder.mftRecords ≤ 4096)
    (room : builder.neededClusters ≤ builder.totalClusters) :
    ∃ layout, builder.takeLayout = .ok layout ∧ LaidOut builder layout := by
  obtain ⟨root, rest, nodes_eq, root_dir, root_record, root_linked, valid⟩ := tree.root
  have linked : ∀ node ∈ builder.nodes, Linked builder.nodes.length node := by
    rw [nodes_eq, List.forall_mem_cons, ← nodes_eq]
    exact ⟨root_linked, fun node member => (valid node member).2⟩
  have count : builder.nodes.length ≤ 4053 := by
    have needed := le_growRecords builder.neededRecords MFT_INITIAL_RECORDS
    unfold Builder.mftRecords at few
    unfold Builder.neededRecords FIRST_USER_RECORD at few needed
    omega
  unfold Builder.neededClusters at room
  have numbered : numberNodes builder.nodes = root :: (numberNodes builder.nodes).tail := by
    rw [nodes_eq, numberNodes, List.mapIdx_cons]
    rfl
  -- the data of the nodes behind the root
  have data_needed : ((numberNodes builder.nodes).tail.map Node.neededClusters).sum =
      builder.dataClusters := by
    rw [List.map_tail, numberNodes_needed, ← List.map_tail]
    rfl
  obtain ⟨users, taken, users_placed⟩ := @takeData_ok builder.systemClusters builder.totalClusters
    (numberNodes builder.nodes).tail (fun node member => by
      obtain ⟨original, inside, same⟩ := mem_numberNodes (List.mem_of_mem_tail member)
      rw [same]
      exact (linked original inside).unplaced) (by rw [data_needed]; omega)
  have placed : List.Forall₂ (DataPlaced builder.totalClusters) (numberNodes builder.nodes)
      (root :: users) := by
    rw [numbered]
    refine .cons ⟨?_, fun some_needed => ?_⟩ users_placed
    · rw [neededClusters_directory root_dir, ← root_linked.unplaced]
    · exact absurd (neededClusters_directory root_dir) some_needed
  generalize all_eq : root :: users = all at placed
  have first : (numberNodes builder.nodes).take 1 ++ users = all := by
    rw [numbered, ← all_eq]
    rfl
  have same (place : Nat) (node : Node) : builder.directoryKeys all place node =
      builder.directoryKeys builder.sizedNodes place node := by
    refine (directoryKeys_placed ?_).symm
    rw [takeData_same placed, Builder.sizedNodes, List.map_map]
    rfl
  -- a node of the layout stands for a node of the tree
  have node_of {place : Nat} {found : Node} (present : all[place]? = some found) :
      ∃ node, builder.nodes[place]? = some node ∧ found.name = node.name ∧
        found.is_dir = node.is_dir ∧ found.children = node.children := by
    obtain ⟨middle, middle_found, related⟩ := forall₂_getElem? placed.flip present
    rw [numberNodes_getElem?] at middle_found
    obtain ⟨node, original, equal⟩ := Option.map_eq_some_iff.mp middle_found
    refine ⟨node, original, ?_⟩
    rw [related.same, ← equal]
    split <;> exact ⟨rfl, rfl, rfl⟩
  have member_of {found : Node} (member : found ∈ all) :
      ∃ node ∈ builder.nodes, found.children = node.children := by
    obtain ⟨place, present⟩ := List.mem_iff_getElem?.mp member
    obtain ⟨node, original, -, -, children⟩ := node_of present
    exact ⟨node, List.mem_of_getElem? original, children⟩
  have blocks : builder.indexBlocksFrom 0 all = builder.indexBlocksFrom 0 builder.nodes := by
    refine indexBlocksFrom_congr (List.forall₂_iff_get.mpr ⟨?_, fun place bound other => ?_⟩)
    · rw [← placed.length_eq, numberNodes, List.length_mapIdx]
    · obtain ⟨node, original, -, sort, children⟩ := node_of (List.getElem?_eq_getElem bound)
      have equal := (List.getElem?_eq_some_iff.mp original).2
      rw [List.get_eq_getElem, List.get_eq_getElem, equal]
      exact ⟨sort, children⟩
  obtain ⟨final, built, final_length, each⟩ := @buildDirIndexes_ok
    (builder.systemClusters + builder.dataClusters) builder.totalClusters builder all all 0 same
    (fun node member child child_member found present => by
      obtain ⟨original, inside, children⟩ := member_of member
      have positive := ((linked original inside).children child (children ▸ child_member)).1
      obtain ⟨other, other_found, name, -⟩ := node_of present
      rw [name]
      obtain ⟨before, rfl⟩ := Nat.exists_eq_succ_of_ne_zero (Nat.ne_of_gt positive)
      rw [nodes_eq, List.getElem?_cons_succ] at other_found
      exact (valid other (List.mem_of_getElem? other_found)).1)
    (fun node member => by
      obtain ⟨original, inside, children⟩ := member_of member
      have fewer := (linked original inside).few
      rw [children]
      omega)
    (by rw [blocks]; exact room)
  rw [blocks] at built each
  refine ⟨⟨builder.systemLayout, final, builder.neededClusters⟩, ?_, rfl, rfl, ?_, ?_⟩
  · unfold Builder.takeLayout
    rw [takeSystem_ok (by omega)]
    simp only [bind, Except.bind, pure, Except.pure, taken, data_needed, first, built]
    rfl
  · rw [final_length, ← placed.length_eq, numberNodes, List.length_mapIdx]
  · intro place node found
    obtain ⟨middle, present, related⟩ := forall₂_getElem? placed
      ((numberNodes_getElem? builder.nodes place).trans (by rw [found]; rfl))
    obtain ⟨index, final_found, index_room⟩ := each place middle present
    refine ⟨_, final_found, ?_⟩
    obtain ⟨middle_eq, inside⟩ := related
    generalize middle.data_lcn = lcn at middle_eq inside
    subst middle_eq
    have needed : Node.neededClusters (if place = 0 then node
        else { node with record := FIRST_USER_RECORD + (place - 1) }) = node.neededClusters := by
      split <;> rfl
    have directory : Node.is_dir (if place = 0 then node
        else { node with record := FIRST_USER_RECORD + (place - 1) }) = node.is_dir := by
      split <;> rfl
    have children : Node.children (if place = 0 then node
        else { node with record := FIRST_USER_RECORD + (place - 1) }) = node.children := by
      split <;> rfl
    rw [needed] at inside
    rw [directory, Nat.zero_add] at index_room
    refine ⟨?_, fun positive => ?_, inside, fun some_directory => ?_⟩
    · dsimp only
      split <;> rfl
    · dsimp only
      rw [if_neg (Nat.ne_of_gt positive)]
    · have room := index_room some_directory
      unfold Builder.directoryLengths Builder.directoryKeys at room ⊢
      dsimp only at room
      rw [children] at room
      exact room

end Layouts

end R4OS.NtfsBuilder
