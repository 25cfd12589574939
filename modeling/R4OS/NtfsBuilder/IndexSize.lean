import R4OS.NtfsBuilder.IndexTree

/-!
# The size of an index

How many blocks an index takes follows from the lengths of its names.  An index of a volume is never
too large: every overflowing name leaves at least six others in the block that it closes.
-/

namespace R4OS.NtfsBuilder

open Text Block NtfsFormat

def levelBlocks : Nat → Bool → List Nat → Nat
  | 0, _, _ => 0
  | depth_guard + 1, has_child, lengths =>
    let overflow := (fillBlocks has_child 0 lengths).2
    overflow.length + 1 + if overflow = [] then 0 else levelBlocks depth_guard true overflow

/-- The bytes of entries without children. -/
def residentLength (lengths : List Nat) : Nat :=
  (lengths.map fun fn_value_len => entryLength fn_value_len false).sum

/-- The blocks of an index, when it does not fit a record. -/
def indexBlockCount (lengths : List Nat) : Nat :=
  if residentLength lengths + 0x10 ≤ ROOT_ENTRY_BUDGET then 0 else levelBlocks 8 false lengths

def ShortNames (lengths : List Nat) : Prop := ∀ length ∈ lengths, length ≤ 0x42 + 510

section Sizes

variable {has_child : Bool} {lengths : List Nat} {used : Nat}

theorem entryLength_le {length : Nat} (short : length ≤ 0x42 + 510) :
    entryLength length has_child ≤ 608 := by
  unfold entryLength CLayout.alignUp
  split <;> omega

theorem ShortNames.overflow (short : ShortNames lengths) :
    ShortNames (fillBlocks has_child used lengths).2 := by
  induction lengths generalizing used with
  | nil => exact short
  | cons length rest induction =>
    have rest_short : ShortNames rest := fun other member =>
      short other (.tail _ member)
    rw [fillBlocks]
    split
    · intro other member
      rcases List.mem_cons.mp member with rfl | later
      · exact short _ (.head _)
      · exact induction rest_short other later
    · exact induction rest_short

theorem overflow_length (short : ShortNames lengths) {standing : Nat}
    (few : used ≤ 608 * standing) :
    7 * (fillBlocks has_child used lengths).2.length ≤ lengths.length + standing := by
  induction lengths generalizing used standing with
  | nil => exact Nat.zero_le _
  | cons length rest induction =>
    have rest_short : ShortNames rest := fun other member =>
      short other (.tail _ member)
    have entry := @entryLength_le has_child length (short length (.head _))
    rw [fillBlocks]
    split
    · next exceeds =>
      have six : 4008 < 608 * standing + 608 := by
        have room : capacity = 4008 := rfl
        omega
      have later := induction rest_short (Nat.zero_le (608 * 0))
      rw [List.length_cons, List.length_cons]
      omega
    · have later := @induction (used + entryLength length has_child) rest_short (standing + 1)
        (by omega)
      rw [List.length_cons]
      omega

theorem levelBlocks_le (depth_guard : Nat) (short : ShortNames lengths) :
    levelBlocks depth_guard has_child lengths ≤ lengths.length + 1 := by
  induction depth_guard generalizing has_child lengths with
  | zero => exact Nat.zero_le _
  | succ depth_guard induction =>
    have fewer := @overflow_length has_child lengths 0 short 0 (Nat.zero_le _)
    have above := @induction true _ (@ShortNames.overflow has_child lengths 0 short)
    rw [levelBlocks]
    split
    · omega
    · next some_overflow =>
      have positive := List.length_pos_iff.mpr some_overflow
      omega

/-- Names that fit one block overflow none. -/
theorem fillBlocks_small (fits : used + (lengths.map (entryLength · has_child)).sum ≤ capacity) :
    fillBlocks has_child used lengths =
      (used + (lengths.map (entryLength · has_child)).sum, []) := by
  induction lengths generalizing used with
  | nil => rfl
  | cons length rest induction =>
    rw [List.map_cons, List.sum_cons] at fits ⊢
    rw [fillBlocks, if_neg (by omega), induction (by omega), Nat.add_assoc]

theorem indexBlockCount_le_one (small : residentLength lengths ≤ capacity) :
    indexBlockCount lengths ≤ 1 := by
  unfold indexBlockCount
  split
  · exact Nat.zero_le 1
  · have filled := @fillBlocks_small false lengths 0 (by rw [Nat.zero_add]; exact small)
    rw [levelBlocks, filled]
    exact Nat.le_refl 1

end Sizes

section Building

variable {height : Nat} {trailing : Option Nat} {keys : List Bytes} {sound : Prop}
  {scan next : Scan} {pending : PendingEntry} {rest : List PendingEntry} {reads : List ReadBlock}

variable {finished : List Bytes} {entries : List PendingEntry}

theorem closeIndexBlock_succeeds
    {end_child : Option Nat} (room : finished.length < MAX_INDEX_BLOCKS)
    (short : ∀ pending ∈ entries, ShortKey pending.key)
    (fits : (entries.map pendingLength).sum ≤ capacity)
    (earlier : ∀ child ∈ Trees.Block.children ⟨entries, end_child⟩, child < finished.length) :
    ∃ bytes, closeIndexBlock finished entries end_child =
      .ok (finished ++ [bytes], finished.length) := by
  have small {child : Nat} (before : child < finished.length) : child < 2 ^ 64 := by
    unfold MAX_INDEX_BLOCKS at room
    omega
  have writable (pending : PendingEntry) (member : pending ∈ entries) : Writable pending := by
    refine writable_of_short (short pending member) fun child some_child => small (earlier child ?_)
    exact List.mem_append_left _ (List.mem_filterMap.mpr ⟨pending, member, some_child⟩)
  have end_small (child : Nat) (some_child : child ∈ end_child) : child < 2 ^ 64 := by
    refine small (earlier child (List.mem_append_right _ ?_))
    rwa [Option.mem_toList]
  have number : finished.length < 2 ^ 64 := by
    unfold MAX_INDEX_BLOCKS at room
    omega
  obtain ⟨bytes, -, installed, -⟩ := readBlock_closed writable fits end_small number
  rw [closeIndexBlock, if_neg (Nat.not_le.mpr room), installed]
  exact ⟨bytes, rfl⟩

theorem Scanned.children_earlier
    (state : Scanned height trailing keys sound scan (pending :: rest) reads) :
    ∀ child ∈ Trees.Block.children ⟨scan.opened, pending.child⟩, child < scan.finished.length := by
  intro child member
  rw [state.shelved.length, ← List.mem_range]
  refine state.once.subset ?_
  rw [Trees.Block.children, List.mem_append] at member
  simp only [childrenOf, List.filterMap_append, List.mem_append]
  refine .inr (.inr (.inl ?_))
  obtain opened | ended := member
  · exact .inl opened
  · rw [Option.mem_toList] at ended
    exact .inr (List.mem_filterMap.mpr ⟨pending, (.head _), ended⟩)

theorem Scanned.step_succeeds
    (state : Scanned height trailing keys sound scan (pending :: rest) reads)
    (room : scan.finished.length + (if capacity < scan.used + pendingLength pending then 1 else 0) ≤
      MAX_INDEX_BLOCKS) :
    ∃ next, scanEntry scan pending = .ok next ∧ next.finished.length =
      scan.finished.length + if capacity < scan.used + pendingLength pending then 1 else 0 := by
  rw [scanEntry]
  split
  · next overflows =>
    rw [if_pos overflows] at room
    obtain ⟨bytes, closed⟩ := closeIndexBlock_succeeds room
      (fun entry member => state.short entry (by simp [member])) (state.used ▸ state.fits)
      state.children_earlier
    rw [closed]
    exact ⟨_, rfl, List.length_append⟩
  · exact ⟨_, rfl, rfl⟩

theorem Scanned.run_succeeds {has_child : Bool}
    (state : Scanned height trailing keys sound scan entries reads)
    (uniform : ∀ pending ∈ entries, pending.child.isSome = has_child)
    (room : scan.finished.length + (fillBlocks has_child scan.used
      (valueLengths (entries.map Trees.Entry.key))).2.length ≤ MAX_INDEX_BLOCKS) :
    ∃ next, scanEntries scan entries = .ok next ∧ next.finished.length = scan.finished.length +
      (fillBlocks has_child scan.used (valueLengths (entries.map Trees.Entry.key))).2.length := by
  induction entries generalizing scan reads with
  | nil => exact ⟨scan, rfl, rfl⟩
  | cons pending rest induction =>
    rw [List.forall_mem_cons] at uniform
    have length : pendingLength pending = entryLength (pending.key.length - 8) has_child := by
      rw [pendingLength, uniform.1]
    have filled : (fillBlocks has_child scan.used
        (valueLengths ((pending :: rest).map Trees.Entry.key))).2.length =
        (if capacity < scan.used + pendingLength pending then 1 else 0) +
          (fillBlocks has_child (if capacity < scan.used + pendingLength pending then 0
            else scan.used + pendingLength pending)
            (valueLengths (rest.map Trees.Entry.key))).2.length := by
      rw [List.map_cons, valueLengths, List.map_cons, fillBlocks, ← length]
      split
      · rw [List.length_cons, Nat.add_comm]
        rfl
      · rw [Nat.zero_add]
        rfl
    rw [filled] at room ⊢
    obtain ⟨middle, stepped, count⟩ := state.step_succeeds (by omega)
    obtain ⟨more, middle_state⟩ := state.step stepped
    have middle_used : middle.used = if capacity < scan.used + pendingLength pending then 0
        else scan.used + pendingLength pending := by
      unfold scanEntry at stepped
      split at stepped
      · next overflows =>
        rw [if_pos overflows]
        split at stepped
        · cases stepped
        · cases stepped
          rfl
      · next fits =>
        rw [if_neg fits]
        cases stepped
        rfl
    obtain ⟨next, scanned, next_count⟩ := induction middle_state uniform.2
      (by rw [middle_used]; omega)
    refine ⟨next, ?_, ?_⟩
    · rw [scanEntries, stepped]
      exact scanned
    · rw [next_count, middle_used]
      omega

theorem valueLengths_short (short : ∀ pending ∈ entries, ShortKey pending.key) :
    ShortNames (valueLengths (entries.map Trees.Entry.key)) := by
  intro length member
  rw [valueLengths, List.map_map] at member
  obtain ⟨pending, inside, rfl⟩ := List.mem_map.mp member
  have long := (short pending inside).2
  rw [Function.comp_apply]
  omega

theorem buildLevel_succeeds {current : List PendingEntry}
    (state : Scanned height trailing keys sound ⟨finished, [], [], 0⟩ current reads)
    (room : finished.length + (overflowing height current).2.length + 1 ≤ MAX_INDEX_BLOCKS) :
    ∃ level, buildLevel finished current trailing = .ok level ∧
      level.finished.length = finished.length + (overflowing height current).2.length + 1 := by
  obtain ⟨_, _, _, _, start_reads⟩ := state.halves
  have uniform (pending : PendingEntry) (member : pending ∈ current) :
      pending.child.isSome = decide (0 < height) := by
    obtain ⟨part, tree⟩ := start_reads.child_reads (.inl (List.mem_map_of_mem member))
    exact tree.isSome_eq
  obtain ⟨scan, scanned, count⟩ := state.run_succeeds uniform (by
    unfold overflowing at room
    exact Nat.le_of_succ_le room)
  obtain ⟨more, scan_state⟩ := state.run scanned
  have short := scan_state.short
  have once := scan_state.once
  rw [List.append_nil] at short once
  rw [List.forall_mem_append] at short
  have count_eq : scan.finished.length = finished.length + (overflowing height current).2.length :=
    count
  obtain ⟨bytes, closed⟩ := closeIndexBlock_succeeds (Nat.lt_of_succ_le (count_eq ▸ room)) short.2
    (scan_state.used ▸ scan_state.fits) fun child member => by
      rw [scan_state.shelved.length, ← List.mem_range]
      exact once.subset (List.mem_append_right _ (List.mem_append_right _ member))
  rw [buildLevel, scanned]
  dsimp only
  rw [closed]
  refine ⟨_, rfl, ?_⟩
  dsimp only
  rw [List.length_append, List.length_singleton, count_eq]

theorem buildLevels_succeeds {depth_guard : Nat} {current : List PendingEntry}
    (state : Scanned height trailing keys sound ⟨finished, [], [], 0⟩ current reads)
    (some_entries : current ≠ []) (flat : current.length < 7 ^ depth_guard)
    (room : finished.length + levelBlocks depth_guard (decide (0 < height))
      (valueLengths (current.map Trees.Entry.key)) ≤ MAX_INDEX_BLOCKS) :
    ∃ after top_vcn, buildLevels depth_guard finished current trailing = .ok (after, top_vcn) ∧
      after.length = finished.length + levelBlocks depth_guard (decide (0 < height))
        (valueLengths (current.map Trees.Entry.key)) := by
  induction depth_guard generalizing height trailing sound finished current reads with
  | zero =>
    have positive := List.length_pos_iff.mpr some_entries
    rw [Nat.pow_zero] at flat
    omega
  | succ depth_guard induction =>
    have short := valueLengths_short fun pending member =>
      state.short pending (List.mem_append_right _ (List.mem_append_right _ member))
    have fewer := @overflow_length (decide (0 < height)) _ 0 short 0 (Nat.zero_le _)
    have current_length : (valueLengths (current.map Trees.Entry.key)).length =
        current.length := by rw [valueLengths, List.length_map, List.length_map]
    have blocks : levelBlocks (depth_guard + 1) (decide (0 < height))
        (valueLengths (current.map Trees.Entry.key)) =
        (overflowing height current).2.length + 1 +
          if (overflowing height current).2 = [] then 0
          else levelBlocks depth_guard true (overflowing height current).2 := rfl
    rw [blocks] at room ⊢
    obtain ⟨level, built, count⟩ := buildLevel_succeeds state (by omega)
    obtain ⟨promoted, more, level_state⟩ := buildLevel_scanned state built
    have promoted_length : level.promoted.length = (overflowing height current).2.length := by
      rw [← promoted, valueLengths, List.length_map, List.length_map]
    rw [buildLevels, built]
    dsimp only
    split
    · next no_more =>
      rw [no_more] at promoted
      have no_overflow : (overflowing height current).2 = [] := promoted.symm
      refine ⟨_, _, rfl, ?_⟩
      rw [if_pos no_overflow, count]
      omega
    · next some_more =>
      have some_overflow : (overflowing height current).2 ≠ [] := by
        rw [← List.length_pos_iff, ← promoted_length, List.length_pos_iff]
        exact some_more
      rw [if_neg some_overflow] at room ⊢
      have upper : decide (0 < height + 1) = true := decide_eq_true (Nat.succ_pos height)
      have narrower : level.promoted.length < 7 ^ depth_guard := by
        rw [promoted_length]
        unfold overflowing
        rw [Nat.pow_succ] at flat
        omega
      have level_room : level.finished.length + levelBlocks depth_guard (decide (0 < height + 1))
          (valueLengths (level.promoted.map Trees.Entry.key)) ≤ MAX_INDEX_BLOCKS := by
        rw [upper, promoted, count]
        omega
      obtain ⟨after, top_vcn, built_above, after_count⟩ :=
        induction level_state some_more narrower level_room
      refine ⟨after, top_vcn, built_above, ?_⟩
      rw [after_count, upper, promoted, count]
      omega

end Building

end R4OS.NtfsBuilder
