import R4OS.FontCache.CatalogLaws

/-!
# Cleanup plans of the font cache

A plan lists the entries to remove, each with the path of its object, and the figures that the
catalog will show once a reserved font has been recorded as well.  Applying a plan checks its actions
before the first removal, but its figures only after the last one.
-/

namespace R4OS.FontCache

open Numeric Text

/-- Directory of the cached objects. -/
def objects_path : Bytes := ascii "C:\\R4OS\\Temp\\Klickifax\\Cache\\Fonts\\Objects\\"

/-- Hexadecimal digits in one component of an object path. -/
def object_digest_component_hex_bytes : Nat := 8

def object_digest_component_count : Nat := 8

def object_file_extension : Bytes := ascii ".FNT"

abbrev ObjectPath : Type := Bounded max_path_bytes

def hexDigit (nibble : Nat) : UInt8 := (ascii "0123456789abcdef").getD nibble 0

/-- The hexadecimal text of a digest. -/
def digestHex (digest : Digest) : Bytes :=
  digest.toList.flatMap fun byte => [hexDigit (byte.toNat / 16), hexDigit (byte.toNat % 16)]

/-- A path that fits its buffer. -/
def fixedPath (value : Bytes) : Except CacheError ObjectPath :=
  if fits : value.length ≤ max_path_bytes then .ok ⟨value, fits⟩ else .error .PathTooLong

def objectComponent (hex : Bytes) (component : Nat) : Bytes :=
  (hex.drop (component * object_digest_component_hex_bytes)).take
    object_digest_component_hex_bytes

/-- The path of an object: its digest split into short names. -/
def objectPath (id : Digest) : Except CacheError ObjectPath :=
  let components := (List.range object_digest_component_count).map (objectComponent (digestHex id))
  fixedPath (objects_path ++ [chr '\\'].intercalate components ++ object_file_extension)

/-- Why an entry is removed. -/
inductive CleanupReason
  | expired
  | entry_limit
  | size_limit

/-- The removal of one entry. -/
structure CleanupAction where
  id : Digest
  object_path : ObjectPath
  size : UInt64
  last_access : UInt64
  reason : CleanupReason

/-- Room that a font needs before it is recorded. -/
structure Reservation where
  bytes : UInt64 := 0
  entries : Nat := 0

/-- The removals of one cleanup and the figures it leads to. -/
structure CleanupPlan where
  actions : List CleanupAction := []
  resulting_bytes : UInt64 := 0
  resulting_entries : Nat := 0
  reserved_bytes : UInt64 := 0
  reserved_entries : Nat := 0

/-- Whether each action names an entry of its size and no other action names the same one. -/
def actionsFresh (catalog : Catalog) : List CleanupAction → Bool
  | [] => true
  | action :: rest =>
    (match catalog.find action.id with
      | none => false
      | some entry => entry.size == action.size) &&
      rest.all (fun later => action.id != later.id) && actionsFresh catalog rest

/-- Remove the entries of the actions, up to the first one that is missing. -/
def removeActions (catalog : Catalog) : List CleanupAction → Bool × Catalog
  | [] => (true, catalog)
  | action :: rest =>
    match catalog.remove action.id with
    | none => (false, catalog)
    | some (_, after) => removeActions after rest

def figuresAgree (catalog : Catalog) (plan : CleanupPlan) : Bool :=
  !(plan.resulting_entries < plan.reserved_entries ||
    plan.resulting_bytes < plan.reserved_bytes ||
    catalog.count != plan.resulting_entries - plan.reserved_entries ||
    catalog.total_bytes != plan.resulting_bytes - plan.reserved_bytes)

/-- Apply a plan.  The catalog is returned beside the answer, because an error may come late. -/
def applyCleanup (catalog : Catalog) (plan : CleanupPlan) : Except CacheError Unit × Catalog :=
  if max_entries < plan.actions.length then (.error .InvalidMetadata, catalog)
  else if !actionsFresh catalog plan.actions then (.error .InvalidMetadata, catalog)
  else match removeActions catalog plan.actions with
    | (false, after) => (.error .InvalidMetadata, after)
    | (true, after) =>
      if figuresAgree after plan then (.ok (), after) else (.error .InvalidMetadata, after)

/-- Ids of the entries that a plan removes. -/
def CleanupPlan.ids (plan : CleanupPlan) : List Digest := plan.actions.map CleanupAction.id

def CleanupPlan.removedBytes (plan : CleanupPlan) : Nat :=
  (plan.actions.map fun action => action.size.toNat).sum

/-- Whether a plan passes the checks that come before its removals. -/
def planFresh (catalog : Catalog) (plan : CleanupPlan) : Bool :=
  plan.actions.length ≤ max_entries && actionsFresh catalog plan.actions

section Removal

variable {catalog : Catalog} {actions : List CleanupAction}

variable (exact_catalog : Exact catalog)

include exact_catalog

theorem actionsFresh_cons {action : CleanupAction} :
    actionsFresh catalog (action :: actions) = true ↔
      (∃ entry ∈ catalog.live, entry.id = action.id ∧ entry.size = action.size) ∧
      (∀ later ∈ actions, action.id ≠ later.id) ∧ actionsFresh catalog actions = true := by
  rw [actionsFresh, Bool.and_eq_true, Bool.and_eq_true, List.all_eq_true, and_assoc]
  refine and_congr ?_ (and_congr (by simp) Iff.rfl)
  cases found : catalog.find action.id with
  | none =>
    have absent := find_eq_none.mp found
    simp only [Bool.false_eq_true, false_iff]
    rintro ⟨entry, member, same, -⟩
    exact absent entry member same
  | some entry =>
    obtain ⟨member, same⟩ := live_of_find found
    rw [beq_iff_eq]
    constructor
    · exact fun size => ⟨entry, member, same, size⟩
    · rintro ⟨other, other_mem, other_id, size⟩
      have equal := exact_catalog.distinct.eq_of_id member other_mem (same.trans other_id.symm)
      rw [equal]
      exact size

theorem actionsFresh_targets (fresh : actionsFresh catalog actions = true) :
    ∀ action ∈ actions, ∃ entry ∈ catalog.live, entry.id = action.id ∧ entry.size = action.size := by
  induction actions with
  | nil => nofun
  | cons action rest induction =>
    obtain ⟨target, -, rest_fresh⟩ := (actionsFresh_cons exact_catalog).mp fresh
    exact List.forall_mem_cons.mpr ⟨target, induction rest_fresh⟩

theorem actionsFresh_removed {after : Catalog} {entry : Metadata}
    (removed : Removed catalog entry after) (fresh : actionsFresh catalog actions = true)
    (different : ∀ action ∈ actions, entry.id ≠ action.id) :
    actionsFresh after actions = true := by
  induction actions with
  | nil => rfl
  | cons action rest induction =>
    obtain ⟨head_different, rest_different⟩ := List.forall_mem_cons.mp different
    obtain ⟨⟨target, target_mem, target_id, target_size⟩, apart, rest_fresh⟩ :=
      (actionsFresh_cons exact_catalog).mp fresh
    refine (actionsFresh_cons removed.exact).mpr
      ⟨⟨target, ?_, target_id, target_size⟩, apart, induction rest_fresh rest_different⟩
    rw [removed.live, List.mem_filter]
    exact ⟨target_mem, by simpa [target_id] using head_different.symm⟩

/-- A fresh list of actions is carried out completely. -/
theorem removeActions_fresh (fresh : actionsFresh catalog actions = true) :
    ∃ after, removeActions catalog actions = (true, after) ∧ Exact after ∧
      after.entries = vacate (actions.map CleanupAction.id) catalog.entries ∧
      after.count + actions.length = catalog.count ∧
      after.total_bytes.toNat + (actions.map fun action => action.size.toNat).sum =
        catalog.total_bytes.toNat := by
  induction actions generalizing catalog with
  | nil => exact ⟨catalog, rfl, exact_catalog, (vacate_nil _).symm, rfl, rfl⟩
  | cons action rest induction =>
    obtain ⟨⟨entry, member, same, size⟩, apart, rest_fresh⟩ :=
      (actionsFresh_cons exact_catalog).mp fresh
    obtain ⟨next, next_eq, removed⟩ := exact_catalog.remove member
    have still_fresh := actionsFresh_removed exact_catalog removed rest_fresh
      (fun later later_mem => same ▸ apart later later_mem)
    obtain ⟨after, after_eq, exact_after, entries, count, total⟩ :=
      induction removed.exact still_fresh
    refine ⟨after, ?_, exact_after, ?_, ?_, ?_⟩
    · rw [removeActions, ← same, next_eq]
      exact after_eq
    · rw [entries, removed.entries, List.map_cons, ← same, ← vacate_cons]
    · rw [List.length_cons]
      have step := removed.count
      omega
    · rw [List.map_cons, List.sum_cons, ← size]
      have step := removed.total
      omega

end Removal

/-- The figures of a plan are those of the catalog less the removed entries, with the reserved font
added. -/
structure FiguresMatch (catalog : Catalog) (plan : CleanupPlan) : Prop where
  entries_reserved : plan.reserved_entries ≤ plan.resulting_entries
  bytes_reserved : plan.reserved_bytes ≤ plan.resulting_bytes
  entries : catalog.count + plan.reserved_entries = plan.resulting_entries + plan.actions.length
  bytes : catalog.total_bytes.toNat + plan.reserved_bytes.toNat =
    plan.resulting_bytes.toNat + plan.removedBytes

/-- An error leaves the catalog alone; success removes exactly the entries of the plan. -/
def AllOrNothing (catalog : Catalog) (plan : CleanupPlan) : Prop :=
  (∀ error, (applyCleanup catalog plan).1 = .error error → (applyCleanup catalog plan).2 = catalog) ∧
  ((applyCleanup catalog plan).1 = .ok () →
    (∀ action ∈ plan.actions, ∃ entry ∈ catalog.live,
      entry.id = action.id ∧ entry.size = action.size) ∧
    (applyCleanup catalog plan).2.entries = vacate plan.ids catalog.entries ∧
    (applyCleanup catalog plan).2.validate = true)

section Applying

variable {catalog : Catalog} {plan : CleanupPlan}

theorem figuresAgree_iff : figuresAgree catalog plan = true ↔
    plan.reserved_entries ≤ plan.resulting_entries ∧
    plan.reserved_bytes ≤ plan.resulting_bytes ∧
    catalog.count + plan.reserved_entries = plan.resulting_entries ∧
    catalog.total_bytes.toNat + plan.reserved_bytes.toNat = plan.resulting_bytes.toNat := by
  simp only [figuresAgree, Bool.not_eq_true', Bool.or_eq_false_iff, decide_eq_false_iff_not,
    bne_eq_false_iff_eq, Nat.not_lt, UInt64.not_lt, and_assoc]
  constructor
  · rintro ⟨entries_le, bytes_le, entries, bytes⟩
    have bytes_nat := UInt64.le_iff_toNat_le.mp bytes_le
    refine ⟨entries_le, bytes_le, by omega, ?_⟩
    rw [bytes, UInt64.toNat_sub_of_le _ _ bytes_le]
    omega
  · rintro ⟨entries_le, bytes_le, entries, bytes⟩
    have bytes_nat := UInt64.le_iff_toNat_le.mp bytes_le
    refine ⟨entries_le, bytes_le, by omega, ?_⟩
    rw [← UInt64.toNat_inj, UInt64.toNat_sub_of_le _ _ bytes_le]
    omega

theorem applyCleanup_refused (stale : planFresh catalog plan = false) :
    applyCleanup catalog plan = (.error .InvalidMetadata, catalog) := by
  unfold applyCleanup
  split
  · rfl
  · rename_i few
    have not_fresh : actionsFresh catalog plan.actions = false := by
      simpa [planFresh, Nat.not_lt.mp few] using stale
    rw [not_fresh]
    rfl

/-- A plan whose actions are carried out: its figures alone decide the answer. -/
theorem applyCleanup_removed (exact_catalog : Exact catalog) (fresh : planFresh catalog plan = true) :
    ∃ after, applyCleanup catalog plan =
        (if figuresAgree after plan then .ok () else .error .InvalidMetadata, after) ∧
      Exact after ∧ after.entries = vacate plan.ids catalog.entries ∧
      after.count + plan.actions.length = catalog.count ∧
      (figuresAgree after plan = true ↔ FiguresMatch catalog plan) := by
  simp only [planFresh, Bool.and_eq_true, decide_eq_true_eq] at fresh
  obtain ⟨few, actions_fresh⟩ := fresh
  obtain ⟨after, after_eq, exact_after, entries, count, total⟩ :=
    removeActions_fresh exact_catalog actions_fresh
  refine ⟨after, ?_, exact_after, entries, count, ?_⟩
  · rw [applyCleanup, if_neg (Nat.not_lt.mpr few), actions_fresh, after_eq]
    cases agrees : figuresAgree after plan <;> simp [agrees]
  · rw [figuresAgree_iff]
    constructor
    · rintro ⟨entries_le, bytes_le, entries_eq, bytes_eq⟩
      refine ⟨entries_le, bytes_le, by omega, ?_⟩
      rw [CleanupPlan.removedBytes]
      omega
    · intro figures
      have bytes_eq := figures.bytes
      have entries_eq := figures.entries
      rw [CleanupPlan.removedBytes] at bytes_eq
      exact ⟨figures.entries_reserved, figures.bytes_reserved, by omega, by omega⟩

/-- Applying a plan is all or nothing exactly when its actions are refused, when it has none, or when
its figures match the catalog. -/
theorem applyCleanup_allOrNothing_iff (valid : catalog.validate = true) :
    AllOrNothing catalog plan ↔
      planFresh catalog plan = false ∨ plan.actions = [] ∨ FiguresMatch catalog plan := by
  have exact_catalog := validate_iff.mp valid
  cases fresh : planFresh catalog plan with
  | false =>
    simp only [true_or, iff_true]
    unfold AllOrNothing
    rw [applyCleanup_refused fresh]
    exact ⟨fun _ _ => rfl, nofun⟩
  | true =>
    obtain ⟨after, applied, exact_after, entries, count, agree⟩ :=
      applyCleanup_removed exact_catalog fresh
    have targets : ∀ action ∈ plan.actions, ∃ entry ∈ catalog.live,
        entry.id = action.id ∧ entry.size = action.size := by
      simp only [planFresh, Bool.and_eq_true] at fresh
      exact actionsFresh_targets exact_catalog fresh.2
    unfold AllOrNothing
    rw [applied]
    by_cases figures : FiguresMatch catalog plan
    · simp only [agree.mpr figures, if_true, figures, or_true, iff_true]
      exact ⟨nofun, fun _ => ⟨targets, entries, validate_iff.mpr exact_after⟩⟩
    · have disagree : figuresAgree after plan = false := by
        simpa using mt agree.mp figures
      simp only [disagree, Bool.false_eq_true, if_false, figures, or_false, false_or, reduceCtorEq,
        false_imp_iff, and_true]
      constructor
      · intro unchanged
        have same := unchanged _ rfl
        rw [same] at count
        exact List.length_eq_zero_iff.mp (by omega)
      · intro no_actions _ _
        have no_ids : plan.ids = [] := by rw [CleanupPlan.ids, no_actions, List.map_nil]
        rw [no_ids, vacate_nil] at entries
        rw [no_actions, List.length_nil, Nat.add_zero] at count
        exact Exact.eq_of_entries exact_after exact_catalog entries

end Applying

/-- A small font. -/
def sampleFont (seed : UInt8) (size : UInt64) : Metadata where
  occupied := true
  id := Vector.replicate digest_bytes seed
  source_url := ⟨ascii "https://fonts.example/a.woff2", by decide⟩
  format := .woff2
  mime := ⟨ascii "font/woff2", by decide⟩
  size := size
  checksum := Vector.replicate digest_bytes seed
  created_at := 1
  last_access := 1

/-- A catalog of two fonts. -/
def sampleCatalog : Catalog where
  entries := [sampleFont 1 10, sampleFont 2 20] ++ List.replicate 126 {}
  count := 2
  total_bytes := 30
  capacity := rfl

/-- The removal of the first font. -/
def sampleAction : CleanupAction where
  id := Vector.replicate digest_bytes 1
  object_path := default
  size := 10
  last_access := 1
  reason := .expired

/-- The removal of the first font, planned while it was alone in the catalog. -/
def stalePlan : CleanupPlan where
  actions := [sampleAction]

theorem applyCleanup_allOrNothing_sample :
    AllOrNothing sampleCatalog { stalePlan with resulting_bytes := 20, resulting_entries := 1 } := by
  refine (applyCleanup_allOrNothing_iff (by decide)).mpr (.inr (.inr ?_))
  exact ⟨by decide, by decide, rfl, rfl⟩

/-- After a second font was recorded, the earlier plan is refused with its font already gone. -/
theorem stale_plan_removes : sampleCatalog.validate = true ∧
    ¬ AllOrNothing sampleCatalog stalePlan := by
  have refused : (applyCleanup sampleCatalog stalePlan).1 = .error .InvalidMetadata := by
    decide
  have changed : (applyCleanup sampleCatalog stalePlan).2.count ≠ sampleCatalog.count := by
    decide
  refine ⟨by decide, fun allOrNothing => changed ?_⟩
  rw [allOrNothing.1 _ refused]

end R4OS.FontCache
