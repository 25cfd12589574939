import R4OS.FontCache.AdmissionLaws

/-!
# Exactness of the font cache over its runs

The states that recording, touching, removing and fresh cleanups reach are exact.  From each of them a
planned admission goes through, ends with the planned figures inside the limits, and evicts least
recently used entries only.
-/

namespace R4OS.FontCache

open Numeric Selection Text

variable {catalog : Catalog}

/-- The removals of a plan: the expired entries, then the oldest of the others, as few as make the
reservation fit. -/
structure Evictions (catalog : Catalog) (policy : Policy) (now : UInt64) (reservation : Reservation)
    (preserve_id : Option Digest) (gone evicted : List Metadata) : Prop where
  gone_iff : ∀ entry, entry ∈ gone ↔ entry ∈ catalog.live ∧ preserve_id ≠ some entry.id ∧
    expired entry.last_access now policy.max_age_seconds = true
  gone_ordered : gone.Pairwise Older
  evicted_mem : ∀ entry ∈ evicted, entry ∈ catalog.live ∧ preserve_id ≠ some entry.id ∧
    expired entry.last_access now policy.max_age_seconds = false
  evicted_ordered : evicted.Pairwise Older
  evicted_first : ∀ entry ∈ evicted, ∀ other ∈ catalog.live, preserve_id ≠ some other.id →
    expired other.last_access now policy.max_age_seconds = false → other ∉ evicted →
    Older entry other
  fits : Fits catalog policy reservation (gone ++ evicted)
  shortest : Shortest catalog policy reservation gone evicted

/-- The entries that a cleanup may remove at most. -/
def others (catalog : Catalog) (preserve_id : Option Digest) : List Metadata :=
  catalog.live.filter fun entry => preserve_id ≠ some entry.id

/-- A plan for the removal of some entries. -/
structure PlanFor (catalog : Catalog) (reservation : Reservation) (removed : List Metadata)
    (plan : CleanupPlan) : Prop where
  live : ∀ entry ∈ removed, entry ∈ catalog.live
  distinct : Distinct removed
  actions : plan.actions.map (fun action => (action.id, action.size)) =
    removed.map fun entry => (entry.id, entry.size)
  entries : plan.resulting_entries + removed.length = catalog.count + reservation.entries
  bytes : plan.resulting_bytes.toNat + weight removed =
    catalog.total_bytes.toNat + reservation.bytes.toNat
  reserved_bytes : plan.reserved_bytes = reservation.bytes
  reserved_entries : plan.reserved_entries = reservation.entries

/-- The outcomes of planning for a valid policy. -/
inductive PlannedCleanup (catalog : Catalog) (policy : Policy) (now : UInt64)
    (reservation : Reservation) (preserve_id : Option Digest) : Except CacheError CleanupPlan → Prop
  | planned (plan : CleanupPlan) (gone evicted : List Metadata)
      (evictions : Evictions catalog policy now reservation preserve_id gone evicted)
      (plan_for : PlanFor catalog reservation (gone ++ evicted) plan) :
      PlannedCleanup catalog policy now reservation preserve_id (.ok plan)
  | no_room (vain : ¬ Fits catalog policy reservation (others catalog preserve_id)) :
      PlannedCleanup catalog policy now reservation preserve_id (.error .ReservationTooLarge)

section Planned

variable {catalog : Catalog} {policy : Policy} {now : UInt64} {reservation : Reservation}
  {preserve_id : Option Digest}

theorem mem_others {entry : Metadata} :
    entry ∈ others catalog preserve_id ↔ entry ∈ catalog.live ∧ preserve_id ≠ some entry.id := by
  simp [others]

theorem Fits.perm {removed other : List Metadata} (fits : Fits catalog policy reservation removed)
    (same : removed.Perm other) : Fits catalog policy reservation other := by
  rw [Fits, ← same.length_eq, ← weight_perm same]
  exact fits

theorem Distinct.nodup {entries : List Metadata} (distinct : Distinct entries) : entries.Nodup := by
  refine List.Pairwise.imp ?_ distinct
  rintro entry other different rfl
  exact different rfl

theorem planCleanup_spec (exact_catalog : Exact catalog) (valid : policy.valid = true) :
    PlannedCleanup catalog policy now reservation preserve_id
      (planCleanup catalog policy now reservation preserve_id) := by
  unfold planCleanup
  split
  · rename_i too_large
    refine .no_room fun fits => ?_
    have part : ∀ entry ∈ others catalog preserve_id, entry ∈ catalog.live :=
      fun entry member => (mem_others.mp member).1
    obtain ⟨few, light⟩ := exact_catalog.part_le part (exact_catalog.distinct.filter _)
    simp only [valid, Bool.not_true, Bool.false_or, Bool.or_eq_true, decide_eq_true_eq,
      UInt64.lt_iff_toNat_lt] at too_large
    obtain ⟨entries_fit, bytes_fit⟩ := fits
    omega
  rw [validate_iff.mpr exact_catalog]
  simp only [Bool.not_true, Bool.false_eq_true, if_false]
  have start : Chosen catalog reservation
      { plan :=
          { resulting_bytes := catalog.total_bytes
            resulting_entries := catalog.count
            reserved_bytes := reservation.bytes
            reserved_entries := reservation.entries } } [] :=
    { slots := by simp
      live := nofun
      distinct := .nil
      actions := rfl
      entries := rfl
      bytes := rfl
      reserved_bytes := rfl
      reserved_entries := rfl }
  have most := count_le_max catalog
  obtain ⟨middle, gone, middle_eq, middle_chosen, gone_first, gone_all⟩ :=
    selectExpired_ok preserve_id now policy.max_age_seconds exact_catalog (max_entries + 1) start
      OldestFirst.nil (by rw [List.length_nil]; omega)
  simp only [middle_eq]
  have gone_iff : ∀ entry, entry ∈ gone ↔ entry ∈ catalog.live ∧ preserve_id ≠ some entry.id ∧
      expired entry.last_access now policy.max_age_seconds = true := by
    intro entry
    constructor
    · intro member
      obtain ⟨live, foreign, aged⟩ := gone_first.pooled entry member
      exact ⟨live, foreign, aged rfl⟩
    · rintro ⟨live, foreign, aged⟩
      exact gone_all entry ⟨live, foreign, fun _ => aged⟩
  have later_iff (entry : Metadata) : LaterPool catalog preserve_id gone entry ↔
      entry ∈ catalog.live ∧ preserve_id ≠ some entry.id ∧
        expired entry.last_access now policy.max_age_seconds = false := by
    rw [LaterPool, gone_iff]
    cases expired entry.last_access now policy.max_age_seconds <;> simp
    tauto
  have middle_start : Chosen catalog reservation middle (gone ++ []) := by simpa using middle_chosen
  have outcome := evictUntilFits_spec policy now preserve_id exact_catalog (max_entries + 1)
    middle_start OldestFirst.nil
    (fun shorter front different => absurd (List.prefix_nil.mp front) different) (by omega)
  cases outcome_eq : evictUntilFits catalog policy now reservation preserve_id (max_entries + 1)
    middle with
  | error error =>
    rw [outcome_eq] at outcome
    cases outcome with
    | vain all distinct pooled complete no_room =>
      refine .no_room fun fits => no_room (fits.perm ?_)
      have others_nodup : (others catalog preserve_id).Nodup :=
        Distinct.nodup (exact_catalog.distinct.filter _)
      refine (List.perm_ext_iff_of_nodup others_nodup distinct.nodup).mpr fun entry => ?_
      rw [List.mem_append, mem_others, gone_iff]
      constructor
      · rintro ⟨live, foreign⟩
        by_cases aged : expired entry.last_access now policy.max_age_seconds = true
        · exact .inl ⟨live, foreign, aged⟩
        · exact .inr (complete entry ((later_iff entry).mpr
            ⟨live, foreign, by simpa using aged⟩))
      · rintro (⟨live, foreign, -⟩ | member)
        · exact ⟨live, foreign⟩
        · exact ⟨(pooled entry member).1, (pooled entry member).2.1⟩
  | ok final =>
    rw [outcome_eq] at outcome
    cases outcome with
    | room _ evicted chosen oldest_first fits shortest =>
      have small : final.plan.resulting_bytes.toNat + reservation.bytes.toNat < 2 ^ 64 := by
        have bytes := chosen.bytes
        have limit := policy.max_total_bytes.toNat_lt
        have bytes_fit := fits.2
        omega
      have sum : checkedAdd final.plan.resulting_bytes reservation.bytes =
          some (final.plan.resulting_bytes + reservation.bytes) := if_pos small
      have sum_value := checkedAdd_eq_some.mp sum
      simp only [reserve, sum]
      refine .planned _ gone evicted ?_ ?_
      · exact
          { gone_iff := gone_iff
            gone_ordered := gone_first.ordered
            evicted_mem := fun entry member =>
              (later_iff entry).mp (oldest_first.pooled entry member)
            evicted_ordered := oldest_first.ordered
            evicted_first := fun entry member other live foreign young fresh =>
              oldest_first.first entry member other
                ((later_iff other).mpr ⟨live, foreign, young⟩) fresh
            fits := fits
            shortest := shortest }
      · have entries := chosen.entries
        have bytes := chosen.bytes
        exact
          { live := chosen.live
            distinct := chosen.distinct
            actions := chosen.actions
            entries := by
              dsimp only
              omega
            bytes := by
              dsimp only
              omega
            reserved_bytes := chosen.reserved_bytes
            reserved_entries := chosen.reserved_entries }

end Planned

section Applied

variable {catalog : Catalog} {policy : Policy} {now : UInt64} {reservation : Reservation}
  {preserve_id : Option Digest} {removed : List Metadata} {plan : CleanupPlan}

theorem actionsFresh_of_entries (exact_catalog : Exact catalog) {actions : List CleanupAction}
    (live : ∀ entry ∈ removed, entry ∈ catalog.live) (distinct : Distinct removed)
    (same : actions.map (fun action => (action.id, action.size)) =
      removed.map fun entry => (entry.id, entry.size)) :
    actionsFresh catalog actions = true := by
  induction actions generalizing removed with
  | nil => rfl
  | cons action rest induction =>
    cases removed with
    | nil => cases same
    | cons entry others =>
      rw [List.map_cons, List.map_cons, List.cons.injEq, Prod.mk.injEq] at same
      obtain ⟨⟨same_id, same_size⟩, same_rest⟩ := same
      obtain ⟨entry_live, others_live⟩ := List.forall_mem_cons.mp live
      obtain ⟨entry_different, others_distinct⟩ := List.pairwise_cons.mp distinct
      refine (actionsFresh_cons exact_catalog).mpr
        ⟨⟨entry, entry_live, same_id.symm, same_size.symm⟩, ?_,
          induction others_live others_distinct same_rest⟩
      intro later later_mem
      obtain ⟨other, other_mem, other_eq⟩ := List.mem_map.mp
        (same_rest ▸ List.mem_map_of_mem later_mem)
      have other_id : other.id = later.id := congrArg Prod.fst other_eq
      rw [same_id, ← other_id]
      exact entry_different other other_mem

theorem PlanFor.ids (plan_for : PlanFor catalog reservation removed plan) :
    plan.ids = removed.map Metadata.id := by
  have ids := congrArg (List.map Prod.fst) plan_for.actions
  simpa [CleanupPlan.ids, Function.comp_def] using ids

theorem PlanFor.removedBytes (plan_for : PlanFor catalog reservation removed plan) :
    plan.removedBytes = weight removed := by
  have sizes := congrArg (List.map fun pair => pair.2.toNat) plan_for.actions
  simpa [CleanupPlan.removedBytes, weight, Function.comp_def] using congrArg List.sum sizes

theorem PlanFor.applied (exact_catalog : Exact catalog)
    (plan_for : PlanFor catalog reservation removed plan) :
    ∃ cleaned, applyCleanup catalog plan = (.ok (), cleaned) ∧ Exact cleaned ∧
      cleaned.entries = vacate (removed.map Metadata.id) catalog.entries ∧
      cleaned.count + removed.length = catalog.count ∧
      cleaned.total_bytes.toNat + weight removed = catalog.total_bytes.toNat := by
  have action_count : plan.actions.length = removed.length := by
    simpa using congrArg List.length plan_for.actions
  obtain ⟨few, light⟩ := exact_catalog.part_le plan_for.live plan_for.distinct
  have most := count_le_max catalog
  have fresh : planFresh catalog plan = true := by
    rw [planFresh, actionsFresh_of_entries exact_catalog plan_for.live plan_for.distinct
      plan_for.actions, Bool.and_true, decide_eq_true_eq, action_count]
    rw [exact_catalog.count] at few
    omega
  obtain ⟨cleaned, applied, exact_cleaned, entries, count, agree⟩ :=
    applyCleanup_removed exact_catalog fresh
  have entries_eq := plan_for.entries
  have bytes_eq := plan_for.bytes
  have reserved_bytes := plan_for.reserved_bytes
  have reserved_entries := plan_for.reserved_entries
  have removed_bytes := plan_for.removedBytes
  have figures : FiguresMatch catalog plan :=
    { entries_reserved := by omega
      bytes_reserved := by
        rw [UInt64.le_iff_toNat_le, reserved_bytes]
        omega
      entries := by omega
      bytes := by
        rw [reserved_bytes, removed_bytes]
        omega }
  rw [agree.mpr figures, if_pos rfl] at applied
  rw [action_count] at count
  refine ⟨cleaned, applied, exact_cleaned, plan_for.ids ▸ entries, count, ?_⟩
  have agreed := figuresAgree_iff.mp (agree.mpr figures)
  obtain ⟨-, -, -, agreed_bytes⟩ := agreed
  rw [reserved_bytes] at agreed_bytes
  omega

end Applied

section Admission

variable {catalog : Catalog} {candidate : Prepared} {policy : Policy} {now : UInt64}
  {transaction_id : UInt64} {disposition : Disposition}

variable {error : CacheError}

theorem classify_new (valid : candidate.metadata.valid = true)
    (fresh : ∀ entry ∈ catalog.live, entry.id ≠ candidate.metadata.id) :
    catalog.classify candidate = .ok .new_object := by
  have absent : catalog.entries.find? (·.holds candidate.metadata.id) = none := find_eq_none.mpr fresh
  rw [Catalog.classify, valid, absent]
  rfl

theorem Metadata.valid_checksum {entry : Metadata} (valid : entry.valid = true) :
    entry.id = entry.checksum := by
  simp only [Metadata.valid, Bool.and_eq_true] at valid
  exact beq_iff_eq.mp valid.1.2

theorem classify_duplicate (exact_catalog : Exact catalog) (valid : candidate.metadata.valid = true)
    {entry : Metadata} (member : entry ∈ catalog.live) (same : entry.id = candidate.metadata.id)
    (size : entry.size = candidate.metadata.size) :
    catalog.classify candidate = .ok .duplicate := by
  have found : catalog.entries.find? (·.holds candidate.metadata.id) = some entry :=
    (find_eq_some exact_catalog.distinct).mpr ⟨member, same⟩
  have entry_valid := exact_catalog.valid entry member
  have checksum : entry.checksum = candidate.metadata.checksum := by
    rw [← Metadata.valid_checksum entry_valid, same, Metadata.valid_checksum valid]
  simp [Catalog.classify, valid, found, entry_valid, checksum, size]

theorem classify_after {cleaned : Catalog} {removed : List Metadata} (exact_cleaned : Exact cleaned)
    (entries : cleaned.entries = vacate (removed.map Metadata.id) catalog.entries)
    (protected_id : ∀ entry ∈ removed, entry.id ≠ candidate.metadata.id)
    (classified : catalog.classify candidate = .ok disposition) :
    cleaned.classify candidate = .ok disposition := by
  have live_eq : cleaned.live =
      catalog.live.filter fun entry => entry.id ∉ removed.map Metadata.id := by
    rw [Catalog.live, entries, filter_vacate]
    rfl
  obtain ⟨valid, outcome⟩ := classify_ok classified
  cases outcome with
  | new_object fresh =>
    refine classify_new valid fun entry member => fresh entry ?_
    rw [live_eq] at member
    exact List.mem_of_mem_filter member
  | duplicate entry member same size =>
    refine classify_duplicate exact_cleaned valid ?_ same size
    rw [live_eq, List.mem_filter]
    refine ⟨member, decide_eq_true fun listed => ?_⟩
    obtain ⟨other, other_mem, other_id⟩ := List.mem_map.mp listed
    exact protected_id other other_mem (other_id.trans same)

theorem reservationOf_entries : (reservationOf candidate disposition).entries =
    if disposition = .new_object then 1 else 0 := by
  cases disposition <;> rfl

theorem reservationOf_bytes : (reservationOf candidate disposition).bytes.toNat =
    if disposition = .new_object then candidate.metadata.size.toNat else 0 := by
  cases disposition <;> rfl

theorem record_fits {cleaned : Catalog} {removed : List Metadata} (exact_cleaned : Exact cleaned)
    (valid : policy.valid = true) (classified : cleaned.classify candidate = .ok disposition)
    (fits : Fits catalog policy (reservationOf candidate disposition) removed)
    (count : cleaned.count + removed.length = catalog.count)
    (total : cleaned.total_bytes.toNat + weight removed = catalog.total_bytes.toNat) :
    ∃ after, cleaned.recordCommitted candidate = .ok (disposition, after) ∧
      Recorded cleaned candidate disposition after := by
  cases disposition with
  | duplicate => exact exact_cleaned.record_duplicate classified
  | new_object =>
    obtain ⟨entries_fit, bytes_fit⟩ := fits
    have limit := policy.max_total_bytes.toNat_lt
    simp only [Policy.valid, Bool.and_eq_true, decide_eq_true_eq] at valid
    have most := valid.2
    have one : (reservationOf candidate .new_object).entries = 1 := rfl
    have size : (reservationOf candidate .new_object).bytes = candidate.metadata.size := rfl
    rw [one] at entries_fit
    rw [size] at bytes_fit
    exact exact_cleaned.record_new classified (by omega) (by omega)

/-- Errors that tell of missing room. -/
def wantOfRoom (error : CacheError) : Bool := error == .ReservationTooLarge || error == .CatalogFull

theorem fixedPath_error {value : Bytes} (failed : fixedPath value = .error error) :
    wantOfRoom error = false := by
  unfold fixedPath at failed
  split at failed
  · cases failed
  · cases failed
    rfl

theorem classify_error (failed : catalog.classify candidate = .error error) :
    wantOfRoom error = false := by
  unfold Catalog.classify at failed
  split at failed
  · cases failed
    rfl
  · split at failed
    · cases failed
    · split at failed
      · cases failed
        rfl
      · cases failed

theorem catalogStagePath_error
    (failed : catalogStagePath transaction_id = .error error) : wantOfRoom error = false := by
  unfold catalogStagePath at failed
  split at failed
  · cases failed
    rfl
  · exact fixedPath_error failed

theorem neededStage_error {id : Digest}
    (failed : neededStage id transaction_id disposition = .error error) :
    wantOfRoom error = false := by
  cases disposition with
  | duplicate => cases failed
  | new_object =>
    simp only [neededStage, objectStagePath] at failed
    split at failed
    · cases failed
      rfl
    · exact fixedPath_error failed

theorem planAtomicCommit_error
    (failed : planAtomicCommit catalog candidate transaction_id = .error error) :
    wantOfRoom error = false := by
  unfold planAtomicCommit at failed
  split at failed
  · cases failed
    rfl
  · obtain ⟨path, path_eq⟩ := objectPath_ok candidate.metadata.id
    rw [path_eq] at failed
    cases classified : catalog.classify candidate with
    | error early =>
      rw [classified] at failed
      cases failed
      exact classify_error classified
    | ok known =>
      cases stage : catalogStagePath transaction_id with
      | error early =>
        rw [classified, stage] at failed
        cases failed
        exact catalogStagePath_error stage
      | ok stage_path =>
        cases target : fixedPath catalog_path with
        | error early =>
          rw [classified, stage, target] at failed
          cases failed
          exact fixedPath_error target
        | ok target_path =>
          cases object : neededStage candidate.metadata.id transaction_id known with
          | error early =>
            simp only [classified, stage, target, object, bind, Except.bind] at failed
            cases failed
            exact neededStage_error object
          | ok object_path =>
            simp only [classified, stage, target, object, bind, Except.bind] at failed
            cases failed

end Admission

/-- The states that the operations of the cache reach from an empty catalog. -/
inductive Reachable : Catalog → Prop
  | empty : Reachable {}
  | recordCommitted {catalog after : Catalog} {candidate : Prepared} {disposition : Disposition}
      (reached : Reachable catalog) (valid : candidate.metadata.valid = true)
      (recorded : catalog.recordCommitted candidate = .ok (disposition, after)) : Reachable after
  | touch {catalog : Catalog} (reached : Reachable catalog) (id : Digest) (now : UInt64) :
      Reachable (catalog.touch id now).2
  | remove {catalog after : Catalog} {id : Digest} {removed : Metadata}
      (reached : Reachable catalog) (taken : catalog.remove id = some (removed, after)) :
      Reachable after
  | applyCleanup {catalog : Catalog} {policy : Policy} {now : UInt64} {reservation : Reservation}
      {preserve_id : Option Digest} {plan : CleanupPlan} (reached : Reachable catalog)
      (fresh : planCleanup catalog policy now reservation preserve_id = .ok plan) :
      Reachable (applyCleanup catalog plan).2

theorem Exact.empty : Exact {} := validate_iff.mp (by decide)

theorem valid_of_planCleanup {policy : Policy} {now : UInt64}
    {reservation : Reservation} {preserve_id : Option Digest} {plan : CleanupPlan}
    (planned : planCleanup catalog policy now reservation preserve_id = .ok plan) :
    policy.valid = true := by
  unfold planCleanup at planned
  split at planned
  · cases planned
  · rename_i admitted
    cases valid : policy.valid with
    | true => rfl
    | false => simp [valid] at admitted

theorem Reachable.exact (reached : Reachable catalog) : Exact catalog := by
  induction reached with
  | empty => exact Exact.empty
  | recordCommitted _ _ recorded induction => exact (induction.recordCommitted recorded).exact
  | touch _ id now induction => exact induction.touch id now
  | @remove catalog after id removed _ taken induction =>
    by_cases known : ∃ entry ∈ catalog.live, entry.id = id
    · obtain ⟨entry, member, rfl⟩ := known
      obtain ⟨result, result_eq, result_removed⟩ := induction.remove member
      rw [result_eq] at taken
      cases taken
      exact result_removed.exact
    · have absent : catalog.remove id = none := remove_eq_none.mpr fun entry member same =>
        known ⟨entry, member, same⟩
      rw [absent] at taken
      cases taken
  | @applyCleanup catalog policy now reservation preserve_id plan _ fresh induction =>
    have outcome : PlannedCleanup catalog policy now reservation preserve_id
        (planCleanup catalog policy now reservation preserve_id) :=
      planCleanup_spec induction (valid_of_planCleanup fresh)
    rw [fresh] at outcome
    cases outcome with
    | planned _ gone evicted _ plan_for =>
      obtain ⟨cleaned, applied, exact_cleaned, -⟩ := plan_for.applied induction
      rw [applied]
      exact exact_cleaned

/-- What a successful admission plan leads to. -/
structure Admits (catalog : Catalog) (candidate : Prepared) (policy : Policy) (now : UInt64)
    (plan : AdmissionPlan) (cleaned after : Catalog) (gone evicted : List Metadata) : Prop where
  applied : applyCleanup catalog plan.cleanup = (.ok (), cleaned)
  recorded : cleaned.recordCommitted candidate = .ok (plan.disposition, after)
  entries : after.count = plan.cleanup.resulting_entries
  bytes : after.total_bytes = plan.cleanup.resulting_bytes
  entries_limit : after.count ≤ policy.max_entry_count
  bytes_limit : after.total_bytes ≤ policy.max_total_bytes
  removed : cleaned.entries = vacate plan.cleanup.ids catalog.entries
  ids : plan.cleanup.ids = (gone ++ evicted).map Metadata.id
  evictions : Evictions catalog policy now (reservationOf candidate plan.disposition)
    (some candidate.metadata.id) gone evicted
  protected_id : candidate.metadata.id ∉ plan.cleanup.ids

theorem Exact.admits {candidate : Prepared} {policy : Policy} {now : UInt64}
    {transaction_id : UInt64} {plan : AdmissionPlan} (exact_catalog : Exact catalog)
    (valid : policy.valid = true)
    (planned : planAdmission catalog candidate policy now transaction_id = .ok plan) :
    ∃ cleaned after gone evicted,
      Admits catalog candidate policy now plan cleaned after gone evicted := by
  unfold planAdmission at planned
  cases classified : catalog.classify candidate with
  | error error =>
    rw [classified] at planned
    cases planned
  | ok disposition =>
    have outcome : PlannedCleanup catalog policy now (reservationOf candidate disposition)
        (some candidate.metadata.id) (planCleanup catalog policy now
          (reservationOf candidate disposition) (some candidate.metadata.id)) :=
      planCleanup_spec exact_catalog valid
    cases cleanup_eq : planCleanup catalog policy now (reservationOf candidate disposition)
        (some candidate.metadata.id) with
    | error error =>
      simp only [classified, cleanup_eq] at planned
      cases planned
    | ok cleanup =>
      cases atomic_eq : planAtomicCommit catalog candidate transaction_id with
      | error error =>
        simp only [classified, cleanup_eq, atomic_eq] at planned
        cases planned
      | ok atomic =>
        simp only [classified, cleanup_eq, atomic_eq] at planned
        cases planned
        rw [cleanup_eq] at outcome
        cases outcome with
        | planned _ gone evicted evictions plan_for =>
          obtain ⟨cleaned, applied, exact_cleaned, entries, count, total⟩ :=
            plan_for.applied exact_catalog
          have foreign : ∀ entry ∈ gone ++ evicted, entry.id ≠ candidate.metadata.id := by
            intro entry member same
            rcases List.mem_append.mp member with old | new
            · exact ((evictions.gone_iff entry).mp old).2.1 (congrArg some same.symm)
            · exact (evictions.evicted_mem entry new).2.1 (congrArg some same.symm)
          have still := classify_after exact_cleaned entries foreign classified
          obtain ⟨after, recorded, figures⟩ := record_fits exact_cleaned valid still
            evictions.fits count total
          have count_eq := figures.count
          have total_eq := figures.total
          have plan_entries := plan_for.entries
          have plan_bytes := plan_for.bytes
          obtain ⟨entries_fit, bytes_fit⟩ := evictions.fits
          rw [reservationOf_entries] at plan_entries entries_fit
          rw [reservationOf_bytes] at plan_bytes bytes_fit
          refine ⟨cleaned, after, gone, evicted, applied, recorded, ?_, ?_, ?_, ?_,
            plan_for.ids ▸ entries, plan_for.ids, evictions, ?_⟩
          · dsimp only
            omega
          · rw [← UInt64.toNat_inj]
            dsimp only
            omega
          · omega
          · rw [UInt64.le_iff_toNat_le]
            omega
          · rw [plan_for.ids]
            intro listed
            obtain ⟨entry, member, same⟩ := List.mem_map.mp listed
            exact foreign entry member same

/-- In every reachable state the catalog is exact, a planned admission goes through within the limits
and evicts least recently used entries only, and room is missing only if all other entries together
would not make enough. -/
theorem font_cache_admission {candidate : Prepared} {policy : Policy} (reached : Reachable catalog)
    (valid : policy.valid = true) (now transaction_id : UInt64) :
    catalog.validate = true ∧
    (∀ plan, planAdmission catalog candidate policy now transaction_id = .ok plan →
      ∃ cleaned after gone evicted,
        Admits catalog candidate policy now plan cleaned after gone evicted) ∧
    (∀ error, planAdmission catalog candidate policy now transaction_id = .error error →
      wantOfRoom error = true → ∃ disposition, catalog.classify candidate = .ok disposition ∧
        ¬ Fits catalog policy (reservationOf candidate disposition)
          (others catalog (some candidate.metadata.id))) := by
  have exact_catalog := reached.exact
  refine ⟨validate_iff.mpr exact_catalog, fun plan planned => exact_catalog.admits valid planned, ?_⟩
  intro error failed wanting
  unfold planAdmission at failed
  cases classified : catalog.classify candidate with
  | error early =>
    rw [classified] at failed
    cases failed
    rw [classify_error classified] at wanting
    cases wanting
  | ok disposition =>
    refine ⟨disposition, rfl, ?_⟩
    have outcome : PlannedCleanup catalog policy now (reservationOf candidate disposition)
        (some candidate.metadata.id) (planCleanup catalog policy now
          (reservationOf candidate disposition) (some candidate.metadata.id)) :=
      planCleanup_spec exact_catalog valid
    cases cleanup_eq : planCleanup catalog policy now (reservationOf candidate disposition)
        (some candidate.metadata.id) with
    | error early =>
      rw [cleanup_eq] at outcome
      cases outcome with
      | no_room vain => exact vain
    | ok cleanup =>
      cases atomic_eq : planAtomicCommit catalog candidate transaction_id with
      | error early =>
        simp only [classified, cleanup_eq, atomic_eq] at failed
        cases failed
        rw [planAtomicCommit_error atomic_eq] at wanting
        cases wanting
      | ok atomic =>
        simp only [classified, cleanup_eq, atomic_eq] at failed
        cases failed

/-- A policy for two small fonts. -/
def samplePolicy : Policy where
  max_object_bytes := 40
  max_total_bytes := 40
  max_age_seconds := 0
  max_entry_count := 2

theorem sampleCatalog_reachable : Reachable sampleCatalog := by
  have first : ∃ catalog, Catalog.recordCommitted {} ⟨sampleFont 1 10⟩ =
      .ok (.new_object, catalog) ∧
      catalog.recordCommitted ⟨sampleFont 2 20⟩ = .ok (.new_object, sampleCatalog) :=
    ⟨_, rfl, rfl⟩
  obtain ⟨catalog, one, two⟩ := first
  exact .recordCommitted (.recordCommitted .empty (by decide) one) (by decide) two

theorem font_cache_admission_sample : ∃ plan cleaned after gone evicted,
    planAdmission sampleCatalog ⟨sampleFont 3 5⟩ samplePolicy 9 7 = .ok plan ∧
      Admits sampleCatalog ⟨sampleFont 3 5⟩ samplePolicy 9 plan cleaned after gone evicted := by
  have planned : (planAdmission sampleCatalog ⟨sampleFont 3 5⟩ samplePolicy 9 7).isOk = true := by
    decide +kernel
  cases plan_eq : planAdmission sampleCatalog ⟨sampleFont 3 5⟩ samplePolicy 9 7 with
  | error error =>
    rw [plan_eq] at planned
    cases planned
  | ok plan =>
    obtain ⟨cleaned, after, gone, evicted, admits⟩ :=
      (font_cache_admission sampleCatalog_reachable (by decide) 9 7).2.1 plan plan_eq
    exact ⟨plan, cleaned, after, gone, evicted, rfl, admits⟩

end R4OS.FontCache
