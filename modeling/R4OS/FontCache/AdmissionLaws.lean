import R4OS.FontCache.Admission

/-!
# Least recently used eviction

Every state of a font catalog is exact, and every admission plan leads to a catalog with the planned
figures.  What a plan removes is determined: all expired entries, and then the least recently used
ones of the others, as few as make the font fit.
-/

namespace R4OS.FontCache

open Numeric Selection Text

/-- The order of last use, and of ids among entries that were used at the same time. -/
def Older (entry other : Metadata) : Prop :=
  entry.last_access < other.last_access ∨
    entry.last_access = other.last_access ∧ entry.id.toList < other.id.toList

theorem lessEvictionCandidate_iff {entry other : Metadata} :
    lessEvictionCandidate entry other = true ↔ Older entry other := by
  unfold lessEvictionCandidate Older
  by_cases same : entry.last_access = other.last_access
  · simp [same]
  · simp [same]

theorem Older.irrefl (entry : Metadata) : ¬ Older entry entry := by
  rintro (less | ⟨-, less⟩)
  · exact UInt64.lt_irrefl _ less
  · exact List.lt_irrefl _ less

theorem Older.trans {first second third : Metadata} (before : Older first second)
    (after : Older second third) : Older first third := by
  rcases before with before | ⟨before_time, before_id⟩ <;>
    rcases after with after | ⟨after_time, after_id⟩
  · exact .inl (UInt64.lt_trans before after)
  · exact .inl (after_time ▸ before)
  · exact .inl (before_time ▸ after)
  · exact .inr ⟨before_time.trans after_time, List.lt_trans before_id after_id⟩

/-- Entries of different ids are ordered one way or the other. -/
theorem Older.total {entry other : Metadata} (different : entry.id ≠ other.id) :
    Older entry other ∨ Older other entry := by
  rcases UInt64.lt_or_le entry.last_access other.last_access with less | le
  · exact .inl (.inl less)
  · rcases UInt64.lt_or_eq_of_le le with less | same
    · exact .inr (.inl less)
    · have lists : entry.id.toList ≠ other.id.toList := fun equal =>
        different (Vector.toList_inj.mp equal)
      by_contra neither
      rw [not_or] at neither
      refine lists (List.le_antisymm ?_ ?_)
      · exact List.not_lt.mp fun less => neither.2 (.inr ⟨same, less⟩)
      · exact List.not_lt.mp fun less => neither.1 (.inr ⟨same.symm, less⟩)

theorem length_intercalate_le {parts : List Bytes} {bound : Nat} (separator : UInt8)
    (short : ∀ part ∈ parts, part.length ≤ bound) :
    ([separator].intercalate parts).length ≤ parts.length * (bound + 1) := by
  induction parts with
  | nil => simp
  | cons part rest induction =>
    obtain ⟨part_short, rest_short⟩ := List.forall_mem_cons.mp short
    have tail := induction rest_short
    cases rest with
    | nil => simpa using Nat.le_succ_of_le part_short
    | cons next others =>
      rw [List.intercalate_cons_cons, List.length_append, List.length_append,
        List.length_singleton, List.length_cons]
      rw [Nat.succ_mul]
      omega

theorem objectPath_ok (id : Digest) : ∃ path, objectPath id = .ok path := by
  have components : ([chr '\\'].intercalate ((List.range object_digest_component_count).map
      (objectComponent (digestHex id)))).length ≤ 8 * 9 := by
    refine length_intercalate_le _ fun part member => ?_
    obtain ⟨component, -, rfl⟩ := List.mem_map.mp member
    exact List.length_take_le _ _
  have front : objects_path.length = 43 := by decide
  have back : object_file_extension.length = 4 := by decide
  refine ⟨_, dif_pos ?_⟩
  rw [List.length_append, List.length_append, front, back]
  unfold max_path_bytes
  omega

/-- The entries that a plan has chosen so far, in order, and what it shows of them. -/
structure Chosen (catalog : Catalog) (reservation : Reservation) (planning : Planning)
    (chosen : List Metadata) : Prop where
  slots : ∀ index entry, catalog.entries[index]? = some entry → entry.occupied = true →
    (index ∈ planning.selected ↔ entry ∈ chosen)
  live : ∀ entry ∈ chosen, entry ∈ catalog.live
  distinct : Distinct chosen
  actions : planning.plan.actions.map (fun action => (action.id, action.size)) =
    chosen.map fun entry => (entry.id, entry.size)
  entries : planning.plan.resulting_entries + chosen.length = catalog.count
  bytes : planning.plan.resulting_bytes.toNat + weight chosen = catalog.total_bytes.toNat
  reserved_bytes : planning.plan.reserved_bytes = reservation.bytes
  reserved_entries : planning.plan.reserved_entries = reservation.entries

section Choosing

variable {catalog : Catalog} {reservation : Reservation} {planning : Planning}
  {chosen : List Metadata}

variable {entry : Metadata} {index : Nat} {gone evicted : List Metadata}

theorem weight_sublist {part whole : List Metadata} (sublist : part.Sublist whole) :
    weight part ≤ weight whole := by
  induction sublist with
  | slnil => exact .refl
  | cons entry _ induction => exact Nat.le_add_left_of_le induction
  | cons_cons entry _ induction => exact Nat.add_le_add_left induction _

theorem slot_unique {first second : Nat} {other : Metadata} (distinct : Distinct catalog.live)
    (entry_slot : catalog.entries[first]? = some entry) (entry_occupied : entry.occupied = true)
    (other_slot : catalog.entries[second]? = some other) (other_occupied : other.occupied = true)
    (same : entry.id = other.id) : first = second := by
  obtain ⟨first_lt, rfl⟩ := List.getElem?_eq_some_iff.mp entry_slot
  obtain ⟨second_lt, rfl⟩ := List.getElem?_eq_some_iff.mp other_slot
  have apart := List.pairwise_iff_getElem.mp (List.pairwise_filter.mp distinct)
  rcases Nat.lt_trichotomy first second with less | equal | greater
  · exact absurd same (apart first second first_lt second_lt less entry_occupied other_occupied)
  · exact equal
  · exact absurd same.symm
      (apart second first second_lt first_lt greater other_occupied entry_occupied)

theorem Exact.part_le (exact_catalog : Exact catalog) {part : List Metadata}
    (live : ∀ entry ∈ part, entry ∈ catalog.live) (distinct : Distinct part) :
    part.length ≤ catalog.count ∧ weight part ≤ catalog.total_bytes.toNat := by
  have nodup : part.Nodup := by
    refine List.Pairwise.imp ?_ distinct
    rintro entry other different rfl
    exact different rfl
  obtain ⟨ordered, perm, sublist⟩ := nodup.subperm live
  constructor
  · rw [exact_catalog.count, ← perm.length_eq]
    exact sublist.length_le
  · rw [exact_catalog.total, ← weight_perm perm]
    exact weight_sublist sublist

/-- The next entry of a list of distinct ones. -/
theorem Distinct.concat (distinct : Distinct chosen)
    (different : ∀ other ∈ chosen, other.id ≠ entry.id) : Distinct (chosen ++ [entry]) := by
  refine List.pairwise_append.mpr ⟨distinct, List.pairwise_singleton _ _, ?_⟩
  intro other other_mem last last_mem
  rw [List.mem_singleton.mp last_mem]
  exact different other other_mem

theorem count_le_max (catalog : Catalog) : catalog.live.length ≤ max_entries := by
  rw [← catalog.capacity]
  exact List.length_filter_le _ _

theorem Chosen.select (exact_catalog : Exact catalog)
    (so_far : Chosen catalog reservation planning chosen)
    (slot : catalog.entries[index]? = some entry) (occupied : entry.occupied = true)
    (fresh : entry ∉ chosen) (reason : CleanupReason) :
    ∃ next, planning.select catalog index reason = .ok next ∧
      Chosen catalog reservation next (chosen ++ [entry]) := by
  have entry_live : entry ∈ catalog.live :=
    mem_live.mpr ⟨List.mem_of_getElem? slot, occupied⟩
  have different : ∀ other ∈ chosen, other.id ≠ entry.id := fun other other_mem same =>
    fresh (exact_catalog.distinct.eq_of_id (so_far.live other other_mem) entry_live same ▸ other_mem)
  have live : ∀ other ∈ chosen ++ [entry], other ∈ catalog.live := by
    intro other member
    rcases List.mem_append.mp member with old | new
    · exact so_far.live other old
    · exact List.mem_singleton.mp new ▸ entry_live
  have distinct := so_far.distinct.concat different
  obtain ⟨length_le, weight_le⟩ := exact_catalog.part_le live distinct
  have action_count : planning.plan.actions.length = chosen.length := by
    simpa using congrArg List.length so_far.actions
  have room : planning.plan.actions.length < max_entries := by
    have most := count_le_max catalog
    rw [List.length_append, List.length_singleton, exact_catalog.count] at length_le
    omega
  obtain ⟨path, path_eq⟩ := objectPath_ok entry.id
  have slot_entry : catalog.entries.getD index {} = entry := by
    rw [List.getD_eq_getElem?_getD, slot, Option.getD_some]
  rw [List.length_append, List.length_singleton] at length_le
  rw [weight_append, weight_cons, weight_nil, Nat.add_zero] at weight_le
  have appended : planning.plan.append entry reason = .ok { planning.plan with
      actions := planning.plan.actions ++ [{
        id := entry.id, object_path := path, size := entry.size
        last_access := entry.last_access, reason := reason }] } := by
    rw [CleanupPlan.append, if_neg (Nat.not_le.mpr room), path_eq]
  refine ⟨_, by rw [Planning.select, slot_entry, appended], ?_⟩
  · have entries_eq := so_far.entries
    have bytes_eq := so_far.bytes
    constructor
    · intro position other other_slot other_occupied
      have former := so_far.slots position other other_slot other_occupied
      rw [List.mem_cons, List.mem_append, List.mem_singleton, former]
      constructor
      · rintro (rfl | old)
        · exact .inr (Option.some.inj (other_slot.symm.trans slot))
        · exact .inl old
      · rintro (old | rfl)
        · exact .inr old
        · exact .inl (slot_unique exact_catalog.distinct other_slot other_occupied slot occupied rfl)
    · exact live
    · exact distinct
    · simp [so_far.actions]
    · simp only [List.length_append, List.length_singleton]
      omega
    · simp only [saturatingSub_toNat, weight_append, weight_cons, weight_nil]
      omega
    · exact so_far.reserved_bytes
    · exact so_far.reserved_entries

/-- The entries that a pass may remove. -/
def Pool (catalog : Catalog) (preserve_id : Option Digest) (now max_age : UInt64)
    (expired_only : Bool) (entry : Metadata) : Prop :=
  entry ∈ catalog.live ∧ preserve_id ≠ some entry.id ∧
    (expired_only = true → expired entry.last_access now max_age = true)

variable {preserve_id : Option Digest} {now max_age : UInt64} {expired_only : Bool}

theorem candidateSlot_iff (so_far : Chosen catalog reservation planning chosen) (slot : catalog.entries[index]? = some entry) :
    candidateSlot planning.selected preserve_id now max_age expired_only (entry, index) = true ↔
      Pool catalog preserve_id now max_age expired_only entry ∧ entry ∉ chosen := by
  have inside := List.mem_of_getElem? slot
  cases occupied : entry.occupied with
  | false => simp [candidateSlot, Pool, mem_live, occupied]
  | true =>
    have agrees := so_far.slots index entry slot occupied
    simp only [candidateSlot, Pool, mem_live, occupied, Bool.true_and, Bool.and_eq_true,
      Bool.not_eq_true', bne_iff_ne, Bool.and_eq_false_iff, Bool.not_eq_false', inside, true_and,
      ← agrees, List.contains_eq_mem, decide_eq_false_iff_not]
    cases expired_only <;> simp <;> tauto

theorem mem_zipIdx_slot :
    (entry, index) ∈ catalog.entries.zipIdx ↔ catalog.entries[index]? = some entry :=
  List.mem_zipIdx_iff_getElem?

theorem oldest_scan (catalog : Catalog) (selected : List Nat) (preserve_id : Option Digest)
    (now max_age : UInt64) (expired_only : Bool) :
    LeastOf (candidateSlot selected preserve_id now max_age expired_only)
      (fun left right => lessEvictionCandidate left.1 right.1) catalog.entries.zipIdx
      (least (candidateSlot selected preserve_id now max_age expired_only)
        (fun left right => lessEvictionCandidate left.1 right.1) catalog.entries.zipIdx) := by
  refine least_spec (fun slot => ?_) (fun first second third before after => ?_) _
  · exact Bool.eq_false_iff.mpr fun less => Older.irrefl _ (lessEvictionCandidate_iff.mp less)
  · exact lessEvictionCandidate_iff.mpr ((lessEvictionCandidate_iff.mp before).trans
      (lessEvictionCandidate_iff.mp after))

theorem oldestCandidate_none (so_far : Chosen catalog reservation planning chosen)
    (none_left : oldestCandidate catalog planning.selected preserve_id now max_age expired_only = none) (pooled : Pool catalog preserve_id now max_age expired_only entry) :
    entry ∈ chosen := by
  have scan := oldest_scan catalog planning.selected preserve_id now max_age expired_only
  have absent := scan.absent (Option.map_eq_none_iff.mp none_left)
  obtain ⟨index, slot⟩ := List.mem_iff_getElem?.mp (mem_live.mp pooled.1).1
  have refused := absent (entry, index) (mem_zipIdx_slot.mpr slot)
  by_contra fresh
  rw [(candidateSlot_iff so_far slot).mpr ⟨pooled, fresh⟩] at refused
  cases refused

theorem oldestCandidate_some (exact_catalog : Exact catalog)
    (so_far : Chosen catalog reservation planning chosen)
    (found : oldestCandidate catalog planning.selected preserve_id now max_age expired_only =
      some index) :
    ∃ entry, catalog.entries[index]? = some entry ∧
      Pool catalog preserve_id now max_age expired_only entry ∧ entry ∉ chosen ∧
      ∀ other, Pool catalog preserve_id now max_age expired_only other → other ∉ chosen →
        other ≠ entry → Older entry other := by
  have scan := oldest_scan catalog planning.selected preserve_id now max_age expired_only
  obtain ⟨⟨entry, position⟩, held, rfl⟩ := Option.map_eq_some_iff.mp found
  obtain ⟨member, admissible⟩ := scan.member _ held
  have slot := mem_zipIdx_slot.mp member
  obtain ⟨pooled, fresh⟩ := (candidateSlot_iff so_far slot).mp admissible
  refine ⟨entry, slot, pooled, fresh, fun other other_pooled other_fresh different => ?_⟩
  obtain ⟨other_index, other_slot⟩ := List.mem_iff_getElem?.mp (mem_live.mp other_pooled.1).1
  have not_less := scan.below _ held (other, other_index) (mem_zipIdx_slot.mpr other_slot)
    ((candidateSlot_iff so_far other_slot).mpr ⟨other_pooled, other_fresh⟩)
  have ids : entry.id ≠ other.id := fun same =>
    different (exact_catalog.distinct.eq_of_id other_pooled.1 pooled.1 same.symm)
  rcases Older.total ids with older | younger
  · exact older
  · rw [lessEvictionCandidate_iff.mpr younger] at not_less
    cases not_less

/-- Everything chosen comes from the pool and is in order before the rest of it. -/
structure OldestFirst (pool : Metadata → Prop) (chosen : List Metadata) : Prop where
  pooled : ∀ entry ∈ chosen, pool entry
  ordered : chosen.Pairwise Older
  first : ∀ entry ∈ chosen, ∀ other, pool other → other ∉ chosen → Older entry other

theorem OldestFirst.nil {pool : Metadata → Prop} : OldestFirst pool [] := ⟨nofun, .nil, nofun⟩

theorem OldestFirst.concat {pool : Metadata → Prop} {chosen : List Metadata}
    (so_far : OldestFirst pool chosen) (pooled : pool entry) (fresh : entry ∉ chosen)
    (oldest : ∀ other, pool other → other ∉ chosen → other ≠ entry → Older entry other) :
    OldestFirst pool (chosen ++ [entry]) where
  pooled := by
    intro other member
    rcases List.mem_append.mp member with old | new
    · exact so_far.pooled other old
    · exact List.mem_singleton.mp new ▸ pooled
  ordered := by
    refine List.pairwise_append.mpr ⟨so_far.ordered, List.pairwise_singleton _ _, ?_⟩
    intro other other_mem last last_mem
    rw [List.mem_singleton.mp last_mem]
    exact so_far.first other other_mem entry pooled fresh
  first := by
    intro chosen_entry member other other_pooled other_fresh
    rw [List.mem_append, List.mem_singleton, not_or] at other_fresh
    rcases List.mem_append.mp member with old | new
    · exact so_far.first chosen_entry old other other_pooled other_fresh.1
    · rw [List.mem_singleton.mp new]
      exact oldest other other_pooled other_fresh.1 other_fresh.2

theorem selectExpired_ok (preserve_id : Option Digest) (now max_age : UInt64)
    (exact_catalog : Exact catalog) (rounds : Nat)
    (so_far : Chosen catalog reservation planning chosen)
    (oldest_first : OldestFirst (Pool catalog preserve_id now max_age true) chosen)
    (enough : catalog.live.length < chosen.length + rounds) :
    ∃ final all, selectExpired catalog preserve_id now max_age rounds planning = .ok final ∧
      Chosen catalog reservation final all ∧
      OldestFirst (Pool catalog preserve_id now max_age true) all ∧
      ∀ entry, Pool catalog preserve_id now max_age true entry → entry ∈ all := by
  induction rounds generalizing planning chosen with
  | zero =>
    have few := (exact_catalog.part_le so_far.live so_far.distinct).1
    rw [exact_catalog.count] at few
    omega
  | succ rounds induction =>
    rw [selectExpired]
    cases found : oldestCandidate catalog planning.selected preserve_id now max_age true with
    | none =>
      exact ⟨planning, chosen, rfl, so_far, oldest_first, fun entry pooled =>
        oldestCandidate_none so_far found pooled⟩
    | some index =>
      obtain ⟨entry, slot, pooled, fresh, oldest⟩ :=
        oldestCandidate_some exact_catalog so_far found
      obtain ⟨next, next_eq, next_chosen⟩ := so_far.select exact_catalog slot
        (mem_live.mp pooled.1).2 fresh .expired
      simp only [next_eq]
      refine induction next_chosen (oldest_first.concat pooled fresh oldest) ?_
      rw [List.length_append, List.length_singleton]
      omega

/-- Whether a reservation fits once some entries are gone. -/
def Fits (catalog : Catalog) (policy : Policy) (reservation : Reservation)
    (removed : List Metadata) : Prop :=
  catalog.count + reservation.entries ≤ policy.max_entry_count + removed.length ∧
    catalog.total_bytes.toNat + reservation.bytes.toNat ≤
      policy.max_total_bytes.toNat + weight removed

variable {policy : Policy}

theorem exceedsLimits_eq_false (so_far : Chosen catalog reservation planning chosen) :
    exceedsLimits planning.plan.resulting_bytes planning.plan.resulting_entries reservation policy =
      false ↔ Fits catalog policy reservation chosen := by
  have entries := so_far.entries
  have bytes := so_far.bytes
  simp only [exceedsLimits, Fits, Bool.or_eq_false_iff, decide_eq_false_iff_not, Nat.not_lt,
    UInt64.not_lt, UInt64.le_iff_toNat_le]
  constructor
  · rintro ⟨⟨⟨entries_le, reserved_le⟩, bytes_le⟩, reserved_bytes_le⟩
    rw [UInt64.toNat_sub_of_le _ _ (UInt64.le_iff_toNat_le.mpr bytes_le)] at reserved_bytes_le
    omega
  · rintro ⟨entries_le, bytes_le⟩
    have bytes_small : planning.plan.resulting_bytes.toNat ≤ policy.max_total_bytes.toNat := by omega
    rw [UInt64.toNat_sub_of_le _ _ (UInt64.le_iff_toNat_le.mpr bytes_small)]
    omega

/-- The entries that the second pass may remove after the first one. -/
def LaterPool (catalog : Catalog) (preserve_id : Option Digest) (gone : List Metadata)
    (entry : Metadata) : Prop :=
  entry ∈ catalog.live ∧ preserve_id ≠ some entry.id ∧ entry ∉ gone

/-- No shorter start of the removed entries would do. -/
def Shortest (catalog : Catalog) (policy : Policy) (reservation : Reservation)
    (gone evicted : List Metadata) : Prop :=
  ∀ shorter, shorter <+: evicted → shorter ≠ evicted →
    ¬ Fits catalog policy reservation (gone ++ shorter)

theorem Shortest.concat (shortest : Shortest catalog policy reservation gone evicted)
    (not_yet : ¬ Fits catalog policy reservation (gone ++ evicted)) :
    Shortest catalog policy reservation gone (evicted ++ [entry]) := by
  intro shorter front different
  rcases List.prefix_concat_iff.mp front with whole | part
  · exact absurd whole different
  · by_cases same : shorter = evicted
    · exact same ▸ not_yet
    · exact shortest shorter part same

/-- What the second pass leaves: as few removals as make room, or everything removed in vain. -/
inductive Evicted (catalog : Catalog) (policy : Policy) (reservation : Reservation)
    (preserve_id : Option Digest) (gone : List Metadata) : Except CacheError Planning → Prop
  | room (final : Planning) (all : List Metadata)
      (chosen : Chosen catalog reservation final (gone ++ all))
      (oldest_first : OldestFirst (LaterPool catalog preserve_id gone) all)
      (fits : Fits catalog policy reservation (gone ++ all))
      (shortest : Shortest catalog policy reservation gone all) :
      Evicted catalog policy reservation preserve_id gone (.ok final)
  | vain (all : List Metadata) (distinct : Distinct (gone ++ all))
      (pooled : ∀ entry ∈ all, LaterPool catalog preserve_id gone entry)
      (complete : ∀ entry, LaterPool catalog preserve_id gone entry → entry ∈ all)
      (no_room : ¬ Fits catalog policy reservation (gone ++ all)) :
      Evicted catalog policy reservation preserve_id gone (.error .ReservationTooLarge)

theorem pool_false :
    Pool catalog preserve_id now max_age false entry ∧ entry ∉ gone ++ evicted ↔
      LaterPool catalog preserve_id gone entry ∧ entry ∉ evicted := by
  simp only [Pool, LaterPool, List.mem_append, not_or]
  simp only [Bool.false_eq_true, false_imp_iff, and_true]
  tauto

theorem evictUntilFits_spec (policy : Policy) (now : UInt64) (preserve_id : Option Digest)
    (exact_catalog : Exact catalog) (rounds : Nat)
    (so_far : Chosen catalog reservation planning (gone ++ evicted))
    (oldest_first : OldestFirst (LaterPool catalog preserve_id gone) evicted)
    (shortest : Shortest catalog policy reservation gone evicted)
    (enough : catalog.live.length < (gone ++ evicted).length + rounds) :
    Evicted catalog policy reservation preserve_id gone
      (evictUntilFits catalog policy now reservation preserve_id rounds planning) := by
  induction rounds generalizing planning evicted with
  | zero =>
    have few := (exact_catalog.part_le so_far.live so_far.distinct).1
    rw [exact_catalog.count] at few
    omega
  | succ rounds induction =>
    rw [evictUntilFits]
    cases exceeds : exceedsLimits planning.plan.resulting_bytes planning.plan.resulting_entries
      reservation policy with
    | false =>
      exact .room planning evicted so_far oldest_first ((exceedsLimits_eq_false so_far).mp exceeds)
        shortest
    | true =>
      have not_yet : ¬ Fits catalog policy reservation (gone ++ evicted) := fun fits => by
        rw [(exceedsLimits_eq_false so_far).mpr fits] at exceeds
        cases exceeds
      rw [if_pos rfl]
      cases found : oldestCandidate catalog planning.selected preserve_id now 0 false with
      | none =>
        refine .vain evicted so_far.distinct oldest_first.pooled (fun entry pooled => ?_) not_yet
        by_contra fresh
        obtain ⟨in_pool, absent⟩ := pool_false.mpr ⟨pooled, fresh⟩
        exact absent (oldestCandidate_none so_far found in_pool)
      | some index =>
        obtain ⟨entry, slot, in_pool, absent, oldest⟩ :=
          oldestCandidate_some exact_catalog so_far found
        obtain ⟨pooled, fresh⟩ := pool_false.mp ⟨in_pool, absent⟩
        obtain ⟨next, next_eq, next_chosen⟩ := so_far.select exact_catalog slot
          (mem_live.mp in_pool.1).2 absent (evictionReason planning.plan reservation policy)
        rw [List.append_assoc] at next_chosen
        simp only [next_eq]
        refine induction next_chosen (oldest_first.concat pooled fresh ?_)
          (shortest.concat not_yet) ?_
        · intro other other_pooled other_fresh different
          obtain ⟨other_in, other_absent⟩ := pool_false.mpr ⟨other_pooled, other_fresh⟩
          exact oldest other other_in other_absent different
        · simp only [List.length_append, List.length_singleton] at enough ⊢
          omega

end Choosing

end R4OS.FontCache
