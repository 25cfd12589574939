import R4OS.NtfsBuilder.IndexReader

/-!
# Indexes as trees

The blocks of an index are a tree: every block is referenced once, every path has the same length,
and the keys stand in their order.  A block is without keys exactly when the last entry of a level
overflows.
-/

namespace R4OS.NtfsBuilder

open Text Block NtfsFormat
open Trees (Reads Leads Subtree references)

/-- A reference with the value of a file name of one to 255 units. -/
def IsFileNameKey (key : Bytes) : Prop :=
  ∃ units, 1 ≤ units ∧ units ≤ 255 ∧ key.length = 8 + 0x42 + units * 2 ∧
    readLe 1 key (8 + 0x40) = units

/-- A block with its number, within its room, and with flags that match its children. -/
structure ProperBlock (vcn : Nat) (read : ReadBlock) : Prop where
  vcn : read.parsed.vcn = vcn
  fits : 0x18 + read.parsed.header.index_length ≤ INDEX_BLOCK
  allocated : read.parsed.header.index_length ≤ read.parsed.header.allocated_size
  flags : ∀ entry ∈ read.entries, entry.hasSubNode = read.parsed.header.hasSubNodes ∧
    entry.sub_node_vcn.isSome = read.parsed.header.hasSubNodes

def links (reads : List ReadBlock) : List (Trees.Block Bytes) := reads.map ReadBlock.linked

structure ProperTree (index : DirIndex) (keys : List Bytes) (reads : List ReadBlock) : Prop where
  count : reads.length = index.block_count
  read : ∀ vcn, index.readAt vcn = reads[vcn]?
  proper : ∀ vcn read, reads[vcn]? = some read → ProperBlock vcn read
  root : index.root_has_children = true
  once : (index.root_child_vcn :: references (links reads)).Perm (List.range index.block_count)
  nonempty : ∀ read ∈ reads, read.linked.entries ≠ []
  ordered : ∃ height, Subtree (links reads) height (some index.root_child_vcn) keys

/-- The bytes of the open block behind some entries, and the names that overflow blocks. -/
def fillBlocks (has_child : Bool) : Nat → List Nat → Nat × List Nat
  | used, [] => (used, [])
  | used, fn_value_len :: rest =>
    let len := entryLength fn_value_len has_child
    if capacity < used + len then
      ((fillBlocks has_child 0 rest).1, fn_value_len :: (fillBlocks has_child 0 rest).2)
    else fillBlocks has_child (used + len) rest

/-- At no level the last name overflows its block. -/
def lastNeverOverflows : Nat → Bool → List Nat → Bool
  | 0, _, _ => true
  | depth_guard + 1, has_child, lengths =>
    (fillBlocks has_child 0 lengths).1 != 0 &&
      ((fillBlocks has_child 0 lengths).2.isEmpty ||
        lastNeverOverflows depth_guard true (fillBlocks has_child 0 lengths).2)

def valueLengths (keys : List Bytes) : List Nat := keys.map fun key => key.length - 8

/-- Keys of which entries can be written. -/
def ShortKey (key : Bytes) : Prop := 8 ≤ key.length ∧ key.length ≤ 8 + 0x42 + 510

structure Shelved (finished : List Bytes) (reads : List ReadBlock) : Prop where
  sized : ∀ bytes ∈ finished, bytes.length = INDEX_BLOCK
  read : finished.map readBlock = reads.map some
  proper : ∀ vcn read, reads[vcn]? = some read → ProperBlock vcn read

section Shelves

variable {finished after : List Bytes} {reads : List ReadBlock} {entries : List PendingEntry}
  {end_child : Option Nat} {vcn height : Nat} {keys : List Bytes}

theorem Shelved.length (shelved : Shelved finished reads) : finished.length = reads.length := by
  have lengths := congrArg List.length shelved.read
  rwa [List.length_map, List.length_map] at lengths

theorem pendingLength_le {pending : PendingEntry} (short : ShortKey pending.key) :
    pendingLength pending ≤ 608 := by
  have long := short.2
  unfold pendingLength entryLength CLayout.alignUp
  split <;> omega

theorem pendingLength_pos (pending : PendingEntry) : 0 < pendingLength pending := by
  unfold pendingLength entryLength CLayout.alignUp
  split <;> omega

theorem writable_of_short {pending : PendingEntry} (short : ShortKey pending.key)
    (child : ∀ vcn ∈ pending.child, vcn < 2 ^ 64) : Writable pending :=
  ⟨short.1, (pendingLength_le short).trans_lt (by decide), child⟩

theorem ClosedBlock.proper {read : ReadBlock} {flag : Bool}
    (closed : ClosedBlock entries end_child vcn read)
    (uniform : ∀ pending ∈ entries, pending.child.isSome = flag)
    (end_uniform : end_child.isSome = flag) : ProperBlock vcn read := by
  have inside := closed.inside
  have allocated := closed.allocated
  have flagged : read.parsed.header.hasSubNodes = flag := by
    rw [closed.flags, anyChild, end_uniform]
    cases flag with
    | true => rfl
    | false =>
      rw [Bool.false_or, List.any_eq_false]
      intro pending member
      rw [uniform pending member]
      exact Bool.false_ne_true
  refine ⟨closed.vcn, ?_, inside, ?_⟩
  · rw [allocated] at inside
    unfold INDEX_BLOCK at inside ⊢
    omega
  · rw [closed.walked, flagged]
    intro entry member
    rw [List.mem_append, List.mem_map, List.mem_singleton] at member
    obtain ⟨pending, inside, rfl⟩ | rfl := member
    · have some_child := uniform pending inside
      refine ⟨?_, some_child⟩
      change (nodeFlag pending.child &&& INDEX_ENTRY_NODE != 0) = flag
      rw [← some_child, Bool.eq_iff_iff, bne_iff_ne]
      exact nodeFlag_node
    · refine ⟨?_, end_uniform⟩
      change (endFlags end_child &&& INDEX_ENTRY_NODE != 0) = flag
      rw [← end_uniform, Bool.eq_iff_iff, bne_iff_ne]
      exact endFlags_node

theorem Shelved.close (shelved : Shelved finished reads)
    (closed : closeIndexBlock finished entries end_child = .ok (after, vcn))
    (reading : Reads (Subtree (links reads) height) entries end_child keys)
    (short : ∀ pending ∈ entries, ShortKey pending.key)
    (fits : (entries.map pendingLength).sum ≤ capacity)
    (earlier : ∀ child ∈ Trees.Block.children ⟨entries, end_child⟩, child < reads.length) :
    vcn = reads.length ∧ ∃ read, Shelved after (reads ++ [read]) ∧
      read.linked = ⟨entries, end_child⟩ := by
  have length := shelved.length
  have room := closeIndexBlock_room closed
  have small {child : Nat} (before : child < reads.length) : child < 2 ^ 64 := by
    unfold MAX_INDEX_BLOCKS at room
    omega
  have writable (pending : PendingEntry) (member : pending ∈ entries) : Writable pending := by
    refine writable_of_short (short pending member) fun child some_child => small (earlier child ?_)
    exact List.mem_append_left _ (List.mem_filterMap.mpr ⟨pending, member, some_child⟩)
  have end_small (child : Nat) (some_child : child ∈ end_child) : child < 2 ^ 64 := by
    refine small (earlier child (List.mem_append_right _ ?_))
    rwa [Option.mem_toList]
  obtain ⟨vcn_eq, bytes, read, after_eq, sized, found, closed_block⟩ :=
    closeIndexBlock_ok closed writable fits end_small
  have uniform {child : Option Nat}
      (member : child ∈ entries.map Trees.Entry.child ∨ child = end_child) :
      child.isSome = decide (0 < height) := by
    obtain ⟨part, tree⟩ := reading.child_reads member
    exact tree.isSome_eq
  have proper := closed_block.proper
    (fun pending member => uniform (.inl (List.mem_map_of_mem member))) (uniform (.inr rfl))
  refine ⟨vcn_eq.trans length, read, ⟨?_, ?_, ?_⟩, closed_block.linked⟩
  · rw [after_eq]
    intro other member
    rw [List.mem_append, List.mem_singleton] at member
    obtain old | rfl := member
    · exact shelved.sized other old
    · exact sized
  · rw [after_eq, List.map_append, List.map_append, shelved.read, List.map_singleton,
      List.map_singleton, found]
  · intro number other present
    rw [List.getElem?_append] at present
    split at present
    · exact shelved.proper number other present
    · next behind =>
      have inside := (List.getElem?_eq_some_iff.mp present).1
      have first : number - reads.length = 0 := by
        rw [List.length_singleton] at inside
        omega
      rw [first] at present
      cases present
      have number_eq : number = finished.length := by omega
      rw [number_eq]
      exact proper

theorem links_append (read : ReadBlock) :
    links (reads ++ [read]) = links reads ++ [read.linked] := by
  rw [links, List.map_append, List.map_singleton]
  rfl

end Shelves

def childrenOf (entries : List PendingEntry) : List Nat := entries.filterMap Trees.Entry.child

/-- A level of a height of which some entries are still to come. -/
structure Scanned (height : Nat) (trailing : Option Nat) (keys : List Bytes) (sound : Prop)
    (scan : Scan) (rest : List PendingEntry) (reads : List ReadBlock) : Prop where
  shelved : Shelved scan.finished reads
  halves : ∃ front behind, keys = front ++ behind ∧
    Leads (Subtree (links reads) (height + 1)) scan.promoted front ∧
    Reads (Subtree (links reads) height) (scan.opened ++ rest) trailing behind
  once : (references (links reads) ++ (childrenOf scan.promoted ++
    (childrenOf (scan.opened ++ rest) ++ trailing.toList))).Perm (List.range reads.length)
  used : scan.used = (scan.opened.map pendingLength).sum
  fits : scan.used ≤ capacity
  short : ∀ pending ∈ scan.promoted ++ (scan.opened ++ rest), ShortKey pending.key
  full : (∀ read ∈ reads, read.linked.entries ≠ []) ↔ sound

section Scanning

variable {height : Nat} {trailing : Option Nat} {keys : List Bytes} {sound : Prop}
  {scan next : Scan} {pending : PendingEntry} {rest : List PendingEntry} {reads : List ReadBlock}

theorem links_length (reads : List ReadBlock) : (links reads).length = reads.length :=
  List.length_map _

section

variable (state : Scanned height trailing keys sound scan (pending :: rest) reads)

include state

theorem Scanned.opened_ne
    (overflows : capacity < scan.used + pendingLength pending) : scan.opened ≠ [] := by
  intro none_opened
  have used := state.used
  rw [none_opened] at used
  have small := pendingLength_le (state.short pending (by simp))
  have room : capacity = 4008 := rfl
  rw [List.map_nil, List.sum_nil] at used
  omega

theorem Scanned.promote
    (overflows : capacity < scan.used + pendingLength pending) {finished : List Bytes} {vcn : Nat}
    (closed : closeIndexBlock scan.finished scan.opened pending.child = .ok (finished, vcn)) :
    ∃ more, Scanned height trailing keys sound
      ⟨finished, scan.promoted ++ [⟨pending.key, some vcn⟩], [], 0⟩ rest more := by
  obtain ⟨front, behind, keys_eq, leads, reading⟩ := state.halves
  obtain ⟨part, others, behind_eq, reads_opened, reads_rest⟩ := reading.split
  have once := state.once
  have short_opened (entry : PendingEntry) (member : entry ∈ scan.opened) : ShortKey entry.key :=
    state.short entry (by simp [member])
  have fits : (scan.opened.map pendingLength).sum ≤ capacity := state.used ▸ state.fits
  have earlier (child : Nat)
      (member : child ∈ Trees.Block.children ⟨scan.opened, pending.child⟩) :
      child < reads.length := by
    rw [← List.mem_range]
    refine once.subset ?_
    rw [Trees.Block.children, List.mem_append] at member
    simp only [childrenOf, List.filterMap_append, List.mem_append]
    refine .inr (.inr (.inl ?_))
    obtain opened | ended := member
    · exact .inl opened
    · rw [Option.mem_toList] at ended
      exact .inr (List.mem_filterMap.mpr ⟨pending, (.head _), ended⟩)
  obtain ⟨rfl, read, shelved, linked⟩ :=
    state.shelved.close closed reads_opened short_opened fits earlier
  have tree := Subtree.close reads_opened
  rw [← linked, ← links_append, links_length] at tree
  refine ⟨reads ++ [read], shelved, ⟨front ++ (part ++ [pending.key]), others, ?_, ?_, ?_⟩, ?_, rfl,
    Nat.zero_le _, ?_, ?_⟩
  · rw [keys_eq, behind_eq]
    simp
  · refine (leads.mono fun child keys tree => ?_).concat tree
    rw [links_append]
    exact tree.extend
  · refine reads_rest.mono fun child keys tree => ?_
    rw [links_append]
    exact tree.extend
  · rw [links_append, Trees.references_append, linked, List.length_append, List.length_singleton,
      List.range_succ]
    have grown := once.append_right [reads.length]
    refine List.Perm.trans ?_ grown
    rw [List.perm_iff_count]
    intro child
    cases some_child : pending.child with
    | none | some own => simp [childrenOf, Trees.Block.children, some_child, List.count_cons]; omega
  · intro entry member
    simp only [List.mem_append, List.mem_singleton, List.nil_append] at member
    obtain (promoted | rfl) | later := member
    · exact state.short entry (by simp [promoted])
    · exact state.short pending (by simp)
    · exact state.short entry (by simp [later])
  · rw [List.forall_mem_append, List.forall_mem_singleton, linked, ← state.full]
    exact and_iff_left (state.opened_ne overflows)

theorem Scanned.keep (fits : ¬capacity < scan.used + pendingLength pending) :
    Scanned height trailing keys sound
      { scan with
        opened := scan.opened ++ [pending]
        used := scan.used + pendingLength pending } rest reads := by
  have same : scan.opened ++ [pending] ++ rest = scan.opened ++ pending :: rest := by simp
  refine ⟨state.shelved, ?_, ?_, ?_, Nat.le_of_not_lt fits, ?_, state.full⟩
  · rw [same]
    exact state.halves
  · rw [same]
    exact state.once
  · rw [List.map_append, List.sum_append, List.map_singleton, List.sum_singleton, state.used]
  · rw [same]
    exact state.short

theorem Scanned.step (scanned : scanEntry scan pending = .ok next) :
    ∃ more, Scanned height trailing keys sound next rest more := by
  unfold scanEntry at scanned
  split at scanned
  · next overflows =>
    split at scanned
    · cases scanned
    · next finished vcn closed =>
      cases scanned
      exact state.promote overflows closed
  · next fits =>
    cases scanned
    exact ⟨reads, state.keep fits⟩

end

theorem Scanned.run {entries : List PendingEntry}
    (state : Scanned height trailing keys sound scan entries reads)
    (scanned : scanEntries scan entries = .ok next) :
    ∃ more, Scanned height trailing keys sound next [] more := by
  induction entries generalizing scan reads with
  | nil =>
    cases scanned
    exact ⟨reads, state⟩
  | cons pending rest induction =>
    rw [scanEntries] at scanned
    split at scanned
    · cases scanned
    · next middle stepped =>
      obtain ⟨more, middle_state⟩ := state.step stepped
      exact induction middle_state scanned

/-- The names that overflow are those of the entries for the level above. -/
theorem scanEntries_fill {has_child : Bool} {entries : List PendingEntry}
    (uniform : ∀ pending ∈ entries, pending.child.isSome = has_child)
    (scanned : scanEntries scan entries = .ok next) :
    next.used = (fillBlocks has_child scan.used
      (valueLengths (entries.map Trees.Entry.key))).1 ∧
    valueLengths (next.promoted.map Trees.Entry.key) =
      valueLengths (scan.promoted.map Trees.Entry.key) ++
        (fillBlocks has_child scan.used (valueLengths (entries.map Trees.Entry.key))).2 := by
  induction entries generalizing scan with
  | nil =>
    cases scanned
    exact ⟨rfl, (List.append_nil _).symm⟩
  | cons pending rest induction =>
    rw [List.forall_mem_cons] at uniform
    have length : pendingLength pending = entryLength (pending.key.length - 8) has_child := by
      rw [pendingLength, uniform.1]
    rw [scanEntries] at scanned
    split at scanned
    · cases scanned
    next middle stepped =>
    obtain ⟨used, promoted⟩ := induction uniform.2 scanned
    unfold scanEntry at stepped
    rw [List.map_cons, valueLengths, List.map_cons, fillBlocks, ← length]
    split at stepped
    · next overflows =>
      rw [if_pos overflows]
      split at stepped
      · cases stepped
      cases stepped
      refine ⟨used, promoted.trans ?_⟩
      simp [valueLengths]
    · next fits =>
      rw [if_neg fits]
      cases stepped
      exact ⟨used, promoted⟩

end Scanning

section Levels

variable {height : Nat} {trailing : Option Nat} {keys : List Bytes} {sound : Prop}
  {finished : List Bytes} {current : List PendingEntry} {reads : List ReadBlock}

theorem opened_ne_iff (opened : List PendingEntry) :
    opened ≠ [] ↔ (opened.map pendingLength).sum ≠ 0 := by
  cases opened with
  | nil => exact iff_of_false (fun ne => ne rfl) (fun ne => ne rfl)
  | cons pending rest =>
    have positive := pendingLength_pos pending
    rw [List.map_cons, List.sum_cons]
    exact iff_of_true (List.cons_ne_nil _ _) (by omega)

/-- The names that a level passes upward. -/
def overflowing (height : Nat) (current : List PendingEntry) : Nat × List Nat :=
  fillBlocks (decide (0 < height)) 0 (valueLengths (current.map Trees.Entry.key))

variable (state : Scanned height trailing keys sound ⟨finished, [], [], 0⟩ current reads)

include state

theorem buildLevel_scanned {level : Level}
    (built : buildLevel finished current trailing = .ok level) :
    valueLengths (level.promoted.map Trees.Entry.key) = (overflowing height current).2 ∧
      ∃ more, Scanned (height + 1) (some level.last_vcn) keys
        (sound ∧ (overflowing height current).1 ≠ 0) ⟨level.finished, [], [], 0⟩ level.promoted
        more := by
  obtain ⟨_, _, _, _, start_reads⟩ := state.halves
  have uniform (pending : PendingEntry) (member : pending ∈ current) :
      pending.child.isSome = decide (0 < height) := by
    obtain ⟨part, tree⟩ := start_reads.child_reads (.inl (List.mem_map_of_mem member))
    exact tree.isSome_eq
  unfold buildLevel at built
  split at built
  · cases built
  next scan scanned =>
  split at built
  · cases built
  next after last_vcn closed =>
  cases built
  obtain ⟨used, promoted⟩ := scanEntries_fill uniform scanned
  obtain ⟨scan_reads, scan_state⟩ := state.run scanned
  obtain ⟨front, behind, keys_eq, leads, reading⟩ := scan_state.halves
  have once := scan_state.once
  have short := scan_state.short
  rw [List.append_nil] at reading once short
  rw [List.forall_mem_append] at short
  have fits : (scan.opened.map pendingLength).sum ≤ capacity := scan_state.used ▸ scan_state.fits
  have earlier (child : Nat) (member : child ∈ Trees.Block.children ⟨scan.opened, trailing⟩) :
      child < scan_reads.length := by
    rw [← List.mem_range]
    exact once.subset (List.mem_append_right _ (List.mem_append_right _ member))
  obtain ⟨rfl, read, shelved, linked⟩ :=
    scan_state.shelved.close closed reading short.2 fits earlier
  have tree := Subtree.close reading
  rw [← linked, ← links_append, links_length] at tree
  refine ⟨promoted, scan_reads ++ [read], shelved, ⟨[], keys, rfl, .nil, ?_⟩, ?_, rfl,
    Nat.zero_le _, short.1, ?_⟩
  · rw [keys_eq, List.nil_append]
    refine (leads.mono fun child keys tree => ?_).reads tree
    rw [links_append]
    exact tree.extend
  · rw [links_append, Trees.references_append, linked, List.length_append, List.length_singleton,
      List.range_succ]
    have grown := once.append_right [scan_reads.length]
    refine List.Perm.trans ?_ grown
    rw [List.perm_iff_count]
    intro child
    simp [childrenOf, Trees.Block.children, List.count_cons]
    omega
  · rw [List.forall_mem_append, List.forall_mem_singleton, linked, scan_state.full, opened_ne_iff,
      ← scan_state.used, used]
    exact Iff.rfl

theorem buildLevels_tree {depth_guard top_vcn : Nat} {after : List Bytes}
    (built : buildLevels depth_guard finished current trailing = .ok (after, top_vcn)) :
    ∃ more top, Shelved after more ∧ Subtree (links more) top (some top_vcn) keys ∧
      (top_vcn :: references (links more)).Perm (List.range more.length) ∧
      ((∀ read ∈ more, read.linked.entries ≠ []) ↔ sound ∧
        lastNeverOverflows depth_guard (decide (0 < height))
          (valueLengths (current.map Trees.Entry.key)) = true) := by
  induction depth_guard generalizing height trailing sound finished current reads with
  | zero => cases built
  | succ depth_guard induction =>
    rw [buildLevels] at built
    split at built
    · cases built
    next level level_built =>
    obtain ⟨promoted, level_reads, level_state⟩ := buildLevel_scanned state level_built
    have condition : (sound ∧ lastNeverOverflows (depth_guard + 1) (decide (0 < height))
        (valueLengths (current.map Trees.Entry.key)) = true) ↔
        (sound ∧ (overflowing height current).1 ≠ 0) ∧
          ((overflowing height current).2 = [] ∨
            lastNeverOverflows depth_guard true (overflowing height current).2 = true) := by
      rw [lastNeverOverflows, Bool.and_eq_true, Bool.or_eq_true, bne_iff_ne, List.isEmpty_iff,
        and_assoc]
      rfl
    rw [condition, ← promoted]
    split at built
    · next no_more =>
      cases built
      obtain ⟨front, behind, keys_eq, leads, reading⟩ := level_state.halves
      have once := level_state.once
      rw [no_more] at reading once
      rw [leads.keys_eq_nil rfl, List.nil_append] at keys_eq
      cases reading with
      | last tree =>
      refine ⟨level_reads, height + 1, level_state.shelved, keys_eq ▸ tree, ?_, ?_⟩
      · exact (List.perm_append_singleton _ _).symm.trans once
      · rw [level_state.full, no_more]
        exact (and_iff_left (.inl rfl)).symm
    · next some_more =>
      obtain ⟨more, top, shelved, tree, once, full⟩ := induction level_state built
      refine ⟨more, top, shelved, tree, once, full.trans (and_congr_right fun _ => ?_)⟩
      have some_lengths : valueLengths (level.promoted.map Trees.Entry.key) ≠ [] := by
        rw [valueLengths, ne_eq, List.map_eq_nil_iff, List.map_eq_nil_iff]
        exact some_more
      rw [or_iff_right some_lengths, decide_eq_true (Nat.succ_pos height)]

end Levels

section Indexes

variable {record next_lcn total_clusters next : Nat} {keys : List Bytes} {index : DirIndex}

theorem patchParent_length {key : Bytes} (long : 16 ≤ key.length) :
    (patchParent record key).length = key.length :=
  put_length (by rw [leBytes_length]; exact long)

theorem IsFileNameKey.long {key : Bytes} (name : IsFileNameKey key) :
    16 ≤ key.length ∧ key.length ≤ 8 + 0x42 + 510 := by
  obtain ⟨units, -, short, length, -⟩ := name
  omega

theorem valueLengths_patch (names : ∀ key ∈ keys, IsFileNameKey key) :
    valueLengths (keys.map (patchParent record)) = valueLengths keys := by
  rw [valueLengths, List.map_map]
  refine List.map_congr_left fun key member => ?_
  rw [Function.comp_apply, patchParent_length (names key member).long.1]

theorem residentTotal_patch (names : ∀ key ∈ keys, IsFileNameKey key) :
    residentTotal (keys.map (patchParent record)) = residentTotal keys := by
  rw [residentTotal, List.map_map]
  refine congrArg List.sum (List.map_congr_left fun key member => ?_)
  rw [Function.comp_apply, patchParent_length (names key member).long.1]

theorem scanned_start {unread : List Bytes} (short : ∀ key ∈ unread, ShortKey key) :
    Scanned 0 none unread True ⟨[], [], [], 0⟩ (unread.map fun key => ⟨key, none⟩) [] := by
  refine ⟨⟨fun _ none_left => absurd none_left List.not_mem_nil, rfl, fun _ _ found => ?_⟩,
    ⟨[], unread, rfl, .nil, ?_⟩, ?_, rfl, Nat.zero_le _, fun pending member => ?_,
    iff_of_true (fun _ none_left => absurd none_left List.not_mem_nil) trivial⟩
  · cases found
  · induction unread with
    | nil => exact .last ⟨rfl, rfl⟩
    | cons key rest induction =>
      rw [List.forall_mem_cons] at short
      have unlinked : Subtree (links []) 0 none [] := ⟨rfl, rfl⟩
      exact @Reads.entry _ _ ⟨key, none⟩ _ _ _ _ unlinked (induction short.2)
  · have none_left : childrenOf (unread.map fun key => ⟨key, none⟩) = [] := by
      rw [childrenOf, List.filterMap_eq_nil_iff]
      intro pending member
      obtain ⟨key, -, rfl⟩ := List.mem_map.mp member
      rfl
    rw [List.nil_append, none_left]
    exact .nil
  · obtain ⟨key, inside, rfl⟩ := List.mem_map.mp member
    exact short key inside

theorem readAt_flatten {finished : List Bytes} {reads : List ReadBlock}
    (shelved : Shelved finished reads) (blocks : index.blocks = finished.flatten)
    (count : index.block_count = finished.length) (vcn : Nat) :
    index.readAt vcn = reads[vcn]? := by
  have length := shelved.length
  rw [DirIndex.readAt, count]
  split
  · next inside =>
    have present : finished[vcn]? = some finished[vcn] := List.getElem?_eq_getElem inside
    have piece := @slice_flatMap _ _ id _ [] _ _ shelved.sized present
    rw [List.append_nil, List.flatMap_id] at piece
    rw [blocks, piece]
    have read := congrArg (fun list => list[vcn]?) shelved.read
    rw [List.getElem?_map, List.getElem?_map, present, Option.map_some] at read
    cases found : reads[vcn]? with
    | none => rw [found] at read; cases read
    | some block =>
      rw [found] at read
      exact Option.some.inj read
  · next outside => exact (List.getElem?_eq_none (by omega)).symm

theorem assembleIndex_tree (names : ∀ key ∈ keys, IsFileNameKey key)
    (spills : ROOT_ENTRY_BUDGET < residentTotal keys + 0x10)
    (assembled : assembleIndex record keys next_lcn total_clusters = .ok (index, next)) :
    ∃ reads, (∀ vcn, index.readAt vcn = reads[vcn]?) ∧
      ((∀ read ∈ reads, read.linked.entries ≠ []) ↔
        lastNeverOverflows 8 false (valueLengths keys) = true) ∧
      ((∀ read ∈ reads, read.linked.entries ≠ []) →
        ProperTree index (keys.map (patchParent record)) reads) := by
  unfold assembleIndex at assembled
  dsimp only at assembled
  rw [residentTotal_patch names, if_neg (by omega)] at assembled
  split at assembled
  · cases assembled
  next finished top_vcn built =>
  split at assembled
  · cases assembled
  split at assembled
  · cases assembled
  next lcn next' taken =>
  cases assembled
  have short (key : Bytes) (member : key ∈ keys.map (patchParent record)) : ShortKey key := by
    obtain ⟨unpatched, inside, rfl⟩ := List.mem_map.mp member
    have long := (names unpatched inside).long
    rw [ShortKey, patchParent_length long.1]
    omega
  obtain ⟨reads, top, shelved, tree, once, full⟩ := buildLevels_tree (scanned_start short) built
  have read := @readAt_flatten ⟨[], finished.flatten, finished.length, lcn, true, top_vcn⟩ _ _
    shelved rfl rfl
  have lengths : ((keys.map (patchParent record)).map fun key => Trees.Entry.mk key none).map
      Trees.Entry.key = keys.map (patchParent record) := by
    rw [List.map_map]
    exact List.map_id' _
  rw [lengths, valueLengths_patch names] at full
  refine ⟨reads, read, full.trans (and_iff_right trivial), fun nonempty => ?_⟩
  exact ⟨shelved.length.symm, read, shelved.proper, rfl, by rwa [shelved.length], nonempty,
    top, tree⟩

/-- An index with blocks is a tree with keys in every block exactly when the last name of no level
overflows its block. -/
theorem assembleIndex_proper_iff (names : ∀ key ∈ keys, IsFileNameKey key)
    (spills : ROOT_ENTRY_BUDGET < residentTotal keys + 0x10)
    (assembled : assembleIndex record keys next_lcn total_clusters = .ok (index, next)) :
    (∃ reads, ProperTree index (keys.map (patchParent record)) reads) ↔
      lastNeverOverflows 8 false (valueLengths keys) = true := by
  obtain ⟨reads, read, full, proper⟩ := assembleIndex_tree names spills assembled
  rw [← full]
  refine ⟨fun ⟨others, tree⟩ => ?_, fun nonempty => ⟨reads, proper nonempty⟩⟩
  have same : reads = others := List.ext_getElem? fun vcn => (read vcn).symm.trans (tree.read vcn)
  exact same ▸ tree.nonempty

end Indexes

/-- Upper case of the units below 128. -/
def sampleUpcase : Bytes :=
  (List.range 128).flatMap fun unit =>
    leBytes 2 (if 97 ≤ unit ∧ unit ≤ 122 then unit - 32 else unit)

def sampleKeys (names : Bytes) : List Bytes :=
  names.map fun character => makeFileNameKey 0 [character] 40 1 0x20 false 0 0 3

/-- The names of 47 files in their order. -/
def sampleNames : Bytes := ascii "!#$%&'()+,-0123456789ABCDEFGHIJKLMNOPQRSTUVWXYZ"

theorem assembleIndex_proper_iff_sample :
    (∀ key ∈ sampleKeys sampleNames, IsFileNameKey key) ∧
      ∃ index next, assembleIndex 30 (sampleKeys sampleNames) 0 100 = .ok (index, next) ∧
        ∃ reads, ProperTree index ((sampleKeys sampleNames).map (patchParent 30)) reads := by
  have names : ∀ key ∈ sampleKeys sampleNames, IsFileNameKey key := by
    intro key member
    obtain ⟨character, -, rfl⟩ := List.mem_map.mp member
    exact ⟨1, by decide, by decide, rfl, rfl⟩
  have succeeds : (assembleIndex 30 (sampleKeys sampleNames) 0 100).isOk = true := by
    decide +kernel
  cases assembled : assembleIndex 30 (sampleKeys sampleNames) 0 100 with
  | error error => rw [assembled] at succeeds; cases succeeds
  | ok result =>
    refine ⟨names, result.1, result.2, rfl, ?_⟩
    exact (assembleIndex_proper_iff names (by decide +kernel) assembled).mpr (by decide +kernel)

/-- The names of 46 files leave an empty block behind the last one. -/
theorem assembleIndex_empty_block :
    (∀ key ∈ sampleKeys (sampleNames.take 46), IsFileNameKey key) ∧
      (sampleKeys (sampleNames.take 46)).Pairwise (fun left right =>
        compareFileNames sampleUpcase (keyName left) (keyName right) = .lt) ∧
      ROOT_ENTRY_BUDGET < residentTotal (sampleKeys (sampleNames.take 46)) + 0x10 ∧
      ∃ index next,
        assembleIndex 30 (sampleKeys (sampleNames.take 46)) 0 100 = .ok (index, next) ∧
        ¬∃ reads, ProperTree index ((sampleKeys (sampleNames.take 46)).map (patchParent 30))
          reads := by
  have names : ∀ key ∈ sampleKeys (sampleNames.take 46), IsFileNameKey key := by
    intro key member
    obtain ⟨character, -, rfl⟩ := List.mem_map.mp member
    exact ⟨1, by decide, by decide, rfl, rfl⟩
  have spills : ROOT_ENTRY_BUDGET < residentTotal (sampleKeys (sampleNames.take 46)) + 0x10 := by
    decide +kernel
  have succeeds : (assembleIndex 30 (sampleKeys (sampleNames.take 46)) 0 100).isOk = true := by
    decide +kernel
  cases assembled : assembleIndex 30 (sampleKeys (sampleNames.take 46)) 0 100 with
  | error error => rw [assembled] at succeeds; cases succeeds
  | ok result =>
    refine ⟨names, by decide +kernel, spills, result.1, result.2, rfl, fun ⟨reads, tree⟩ => ?_⟩
    obtain ⟨others, read, full, -⟩ := assembleIndex_tree names spills assembled
    have same : others = reads :=
      List.ext_getElem? fun vcn => (read vcn).symm.trans (tree.read vcn)
    have sound := full.mp (same ▸ tree.nonempty)
    revert sound
    decide +kernel

end R4OS.NtfsBuilder
