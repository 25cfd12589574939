import R4OS.Gpt.Partitions

/-!
# Changes of partition plans

The operations of a plan make a new table, or add, remove or resize one partition.  The main result
covers every operation: a plan that is changed passes its check again and only the addressed
partition differs, and an operation that fails leaves the partitions as they were.
-/

namespace R4OS.Gpt

open Block Text

namespace Plan

variable {Digest : Type}

/-- Make an empty GPT on a blank disk. -/
def initializeGpt (plan : Plan Digest) (disk_guid : Guid) : Except Fault (Plan Digest) := do
  refuse (plan.kind ≠ .none ∨ !plan.blank) .NotEmpty
  refuse (plan.sectors < 68 ∨ disk_guid.isZero) .Geometry
  return { plan with
    kind := .gpt
    disk_guid
    first_usable := 34
    last_usable := plan.sectors - 34
    entry_count := max_entries
    primary_array := 2
    backup_array := plan.sectors - 33
    mbr_prefix := Vector.replicate 446 0
    disk_id := 0 }

/-- Make an empty boot record on a blank disk. -/
def initializeMbr (plan : Plan Digest) (disk_id : UInt32) : Except Fault (Plan Digest) := do
  refuse (plan.kind ≠ .none ∨ !plan.blank) .NotEmpty
  refuse (2 ^ 32 - 1 + 1 < plan.sectors ∨ disk_id = 0) .Geometry
  return { plan with
    kind := .mbr
    disk_guid := .zero
    disk_id
    entry_count := 4
    first_usable := 1
    last_usable := plan.sectors - 1
    mbr_prefix := Vector.replicate 446 0 }

def emptyTable (plan : Plan Digest) (kind : Kind) (disk_guid : Guid) (disk_id : UInt32) :
    Except Fault (Plan Digest) :=
  if kind = .gpt then plan.initializeGpt disk_guid else plan.initializeMbr disk_id

def convertEmpty (plan : Plan Digest) (kind : Kind) (disk_guid : Guid) (disk_id : UInt32) :
    Except Fault (Plan Digest) := do
  plan.validate
  refuse (plan.used.any fun entry => entry.present) .NotEmpty
  refuse (plan.kind = .none ∧ !plan.blank) .NotEmpty
  refuse (kind = .none) .Geometry
  refuse (kind = plan.kind) .AlreadyConverted
  let next ← emptyTable { plan with kind := .none, blank := true } kind disk_guid disk_id
  return { next with erase_source_gpt := plan.kind = .gpt ∧ kind = .mbr }

end Plan

/-- The operations that change a plan. -/
inductive Change
  | initializeGpt (disk_guid : Guid)
  | initializeMbr (disk_id : UInt32)
  | convertEmpty (kind : Kind) (disk_guid : Guid) (disk_id : UInt32)
  | add (entry : Entry)
  | remove (number : Nat)
  | extend (number : Nat) (extra_sectors : Option Nat)
  | shrink (number remove_sectors : Nat)

namespace Change

variable {Digest : Type}

/-- A new table replaces the plan, unless it is refused. -/
def replace (plan : Plan Digest) :
    Except Fault (Plan Digest) → Except Fault Unit × Plan Digest
  | .ok next => (.ok (), next)
  | .error fault => (.error fault, plan)

def run (plan : Plan Digest) : Change → Except Fault Unit × Plan Digest
  | initializeGpt disk_guid => replace plan (plan.initializeGpt disk_guid)
  | initializeMbr disk_id => replace plan (plan.initializeMbr disk_id)
  | convertEmpty kind disk_guid disk_id => replace plan (plan.convertEmpty kind disk_guid disk_id)
  | add entry => (plan.add entry).map (Except.map fun _ => ()) id
  | remove number => plan.remove number
  | extend number extra_sectors =>
    (plan.extend number extra_sectors).map (Except.map fun _ => ()) id
  | shrink number remove_sectors =>
    (plan.shrink number remove_sectors).map (Except.map fun _ => ()) id

/-- The operations that make a new table. -/
def makesTable : Change → Bool
  | initializeGpt _ | initializeMbr _ | convertEmpty _ _ _ => true
  | add _ | remove _ | extend _ _ | shrink _ _ => false

/-- What an operation does to the partitions: a new table has the same ones, and otherwise only the
addressed partition is added, removed or resized. -/
def Effect (before after : Fin max_entries → Option Entry) : Change → Prop
  | initializeGpt _ | initializeMbr _ | convertEmpty _ _ _ => after = before
  | add entry => ∃ slot, before slot = none ∧ after = Function.update before slot (some entry)
  | remove number => ∃ slot, slot.val + 1 = number ∧ before slot ≠ none ∧
      after = Function.update before slot none
  | extend number extra_sectors => ∃ slot entry count, slot.val + 1 = number ∧
      before slot = some entry ∧ entry.count < count ∧
      (∀ extra, extra_sectors = some extra → count = entry.count + extra) ∧
      after = Function.update before slot (some { entry with count })
  | shrink number remove_sectors => ∃ slot entry, slot.val + 1 = number ∧
      before slot = some entry ∧ 0 < remove_sectors ∧ remove_sectors < entry.count ∧
      after = Function.update before slot
        (some { entry with count := entry.count - remove_sectors })

/-- A plan with the partitions and the usable sectors of another plan. -/
structure Kept (plan next : Plan Digest) : Prop where
  kind : next.kind = plan.kind
  first_usable : next.first_usable = plan.first_usable
  last_usable : next.last_usable = plan.last_usable
  partitions : next.partition = plan.partition

/-- What is promised of the result of an operation. -/
def Outcome (change : Change) (plan : Plan Digest) : Except Fault Unit × Plan Digest → Prop
  | (.ok (), next) => next.validate = .ok () ∧ change.Effect plan.partition next.partition
  | (.error _, next) => Kept plan next

section Outcomes

variable {plan next : Plan Digest} {slot : Fin max_entries} {entry : Entry}

theorem Kept.refl (plan : Plan Digest) : Kept plan plan := ⟨rfl, rfl, rfl, rfl⟩

theorem partition_of_absent (absent : plan.Vacant) (slot : Fin max_entries) :
    plan.partition slot = none :=
  Plan.partition_eq_none.mpr fun _ => absent slot

theorem initializeGpt_ok {disk_guid : Guid}
    (sectors : 3 ≤ plan.sectors ∧ plan.sectors ≤ (2 ^ 64 - 1) / 512)
    (absent : plan.kind = .none → plan.Vacant)
    (made : plan.initializeGpt disk_guid = .ok next) :
    next.Sound ∧ next.entries = plan.entries ∧ plan.Vacant := by
  rw [Plan.initializeGpt, refuse_bind_eq_ok, refuse_bind_eq_ok, not_or, not_not, not_or,
    not_lt] at made
  obtain ⟨⟨none_kind, -⟩, ⟨room, guid⟩, made⟩ := made
  cases made
  refine ⟨Plan.sound_of_empty sectors ?_ le_rfl ?_ (partition_of_absent (absent none_kind)), rfl,
    absent none_kind⟩
  · dsimp only
    omega
  · refine ⟨by rintro ⟨⟩, by rintro ⟨⟩, fun _ => ⟨Bool.eq_false_of_not_eq_true guid, ?_⟩⟩
    dsimp [arraySectors, max_entries]
    omega

theorem initializeMbr_ok {disk_id : UInt32}
    (sectors : 3 ≤ plan.sectors ∧ plan.sectors ≤ (2 ^ 64 - 1) / 512)
    (absent : plan.kind = .none → plan.Vacant)
    (made : plan.initializeMbr disk_id = .ok next) :
    next.Sound ∧ next.entries = plan.entries ∧ plan.Vacant := by
  rw [Plan.initializeMbr, refuse_bind_eq_ok, refuse_bind_eq_ok, not_or, not_not] at made
  obtain ⟨⟨none_kind, -⟩, -, made⟩ := made
  cases made
  refine ⟨Plan.sound_of_empty sectors ?_ ?_ ?_ (partition_of_absent (absent none_kind)), rfl,
    absent none_kind⟩
  · dsimp only
    omega
  · dsimp [max_entries]
    omega
  · exact ⟨by rintro ⟨⟩, fun _ => rfl, by rintro ⟨⟩⟩

theorem emptyTable_ok {kind : Kind} {disk_guid : Guid} {disk_id : UInt32}
    (sectors : 3 ≤ plan.sectors ∧ plan.sectors ≤ (2 ^ 64 - 1) / 512)
    (absent : plan.kind = .none → plan.Vacant)
    (made : plan.emptyTable kind disk_guid disk_id = .ok next) :
    next.Sound ∧ next.entries = plan.entries ∧ plan.Vacant := by
  rw [Plan.emptyTable] at made
  split_ifs at made with gpt
  · exact initializeGpt_ok sectors absent made
  · exact initializeMbr_ok sectors absent made

theorem convertEmpty_ok {kind : Kind} {disk_guid : Guid} {disk_id : UInt32} (tidy : plan.Tidy)
    (made : plan.convertEmpty kind disk_guid disk_id = .ok next) :
    next.Sound ∧ next.entries = plan.entries ∧ plan.Vacant := by
  rw [Plan.convertEmpty, check_bind_eq_ok, refuse_bind_eq_ok, refuse_bind_eq_ok,
    refuse_bind_eq_ok, refuse_bind_eq_ok] at made
  obtain ⟨valid, empty, -, some_kind, -, made⟩ := made
  obtain ⟨sectors, -, capacity, -⟩ := Plan.sound_iff.mp (Plan.validate_eq_ok.mp valid)
  have absent : plan.Vacant := by
    intro slot
    by_cases inside : slot.val < plan.entry_count
    · rw [Bool.not_eq_true, List.any_eq_false] at empty
      have listed : slot.val < plan.used.length := by rwa [used_length capacity]
      have clear := empty _ (List.getElem_mem listed)
      rw [Plan.used_getElem listed slot.isLt] at clear
      exact Bool.eq_false_of_not_eq_true clear
    · exact tidy slot (Nat.le_of_not_lt inside)
  obtain ⟨table, started, finished⟩ := bind_eq_ok.mp made
  cases finished
  obtain ⟨⟨sectors, usable, capacity, kind, entries, pairs⟩, same, -⟩ :=
    @emptyTable_ok _ { plan with kind := .none, blank := true } _ _ _ _ sectors (fun _ => absent)
      started
  refine ⟨⟨sectors, usable, capacity, ⟨kind.none, kind.mbr, kind.gpt⟩, ?_, ?_⟩, same, absent⟩
  · intro entry member present
    obtain ⟨sized, first, last, some_kind, mbr, gpt⟩ := entries entry member present
    exact ⟨sized, first, last, some_kind, mbr, gpt⟩
  · refine pairs.imp fun related first second => ?_
    obtain ⟨apart, distinct⟩ := related first second
    exact ⟨apart, distinct⟩

theorem resize_outcome {count : Nat} (found : plan.partition slot = some entry) :
    ((plan.resize slot count).1 = .ok count ∧ (plan.resize slot count).2.validate = .ok () ∧
        (plan.resize slot count).2.partition =
          Function.update plan.partition slot (some { entry with count })) ∨
      ∃ fault, plan.resize slot count = (.error fault, plan) := by
  obtain ⟨inside, present, rfl⟩ := Plan.partition_eq_some.mp found
  rw [Plan.resize]
  cases checked : (plan.setEntry slot { plan.entries[slot] with count }).validate with
  | error fault => exact .inr ⟨fault, rfl⟩
  | ok =>
    refine .inl ⟨rfl, checked, ?_⟩
    rw [Plan.partition_setEntry inside]
    exact congrArg (Function.update plan.partition slot) (if_pos present)

theorem add_outcome (entry : Entry) : (add entry).Outcome plan (run plan (add entry)) := by
  rw [run, Plan.add]
  split_ifs with refused
  · exact Kept.refl plan
  rw [Bool.or_eq_true, not_or, Bool.not_eq_true, Bool.not_eq_false'] at refused
  cases found : plan.freeSlot with
  | none => exact Kept.refl plan
  | some slot =>
    obtain ⟨inside, free⟩ := Plan.freeSlot_eq_some found
    dsimp only
    cases checked : (plan.setEntry slot entry).validate with
    | error fault =>
      refine ⟨rfl, rfl, rfl, ?_⟩
      dsimp [id]
      rw [Plan.partition_setEntry inside, ← free]
      exact Function.update_eq_self slot plan.partition
    | ok =>
      refine ⟨checked, slot, free, ?_⟩
      dsimp [id]
      rw [Plan.partition_setEntry inside, if_pos refused.1]

theorem remove_outcome (number : Nat) (sound : plan.Sound) :
    (remove number).Outcome plan (run plan (remove number)) := by
  rw [run, Plan.remove]
  cases found : plan.slotOf number with
  | none => exact Kept.refl plan
  | some slot =>
    obtain ⟨addressed, present⟩ := Plan.slotOf_eq_some found
    obtain ⟨inside, -⟩ := Plan.partition_eq_some.mp present
    have removed : (plan.setEntry slot {}).partition = Function.update plan.partition slot none :=
      Plan.partition_setEntry inside {}
    refine ⟨Plan.validate_eq_ok.mpr (sound.fewer fun place entry kept => ?_), slot, addressed, ?_,
      removed⟩
    · change (plan.setEntry slot {}).partition place = some entry at kept
      rw [removed] at kept
      by_cases same : place = slot
      · rw [same, Function.update_self] at kept
        cases kept
      · rwa [Function.update_of_ne same] at kept
    · rw [present]
      rintro ⟨⟩

theorem extend_outcome (number : Nat) (extra_sectors : Option Nat)
    (valid : plan.validate = .ok ()) :
    (extend number extra_sectors).Outcome plan (run plan (extend number extra_sectors)) := by
  rw [run, Plan.extend, valid]
  dsimp only
  cases found : plan.slotOf number with
  | none => exact Kept.refl plan
  | some slot =>
    obtain ⟨addressed, present⟩ := Plan.slotOf_eq_some found
    dsimp only
    split_ifs with refused
    · exact Kept.refl plan
    rw [not_or] at refused
    generalize chosen : extra_sectors.getD _ = extra at *
    rcases @resize_outcome _ plan slot _ (plan.entries[slot].count + extra) present with
      ⟨grown, checked, partitions⟩ | ⟨fault, failed⟩
    · rw [show plan.resize slot (plan.entries[slot].count + extra) =
        (.ok (plan.entries[slot].count + extra), _) from Prod.ext grown rfl]
      refine ⟨checked, slot, _, _, addressed, present,
        Nat.lt_add_of_pos_right (Nat.pos_of_ne_zero refused.1), ?_, partitions⟩
      intro given asked
      rw [← chosen, asked]
      rfl
    · rw [failed]
      exact Kept.refl plan

theorem shrink_outcome (number remove_sectors : Nat) (valid : plan.validate = .ok ()) :
    (shrink number remove_sectors).Outcome plan (run plan (shrink number remove_sectors)) := by
  rw [run, Plan.shrink, valid]
  dsimp only
  cases found : plan.slotOf number with
  | none => exact Kept.refl plan
  | some slot =>
    obtain ⟨addressed, present⟩ := Plan.slotOf_eq_some found
    dsimp only
    split_ifs with refused
    · exact Kept.refl plan
    rw [not_or, not_le] at refused
    rcases @resize_outcome _ plan slot _ (plan.entries[slot].count - remove_sectors) present with
      ⟨resized, checked, partitions⟩ | ⟨fault, failed⟩
    · rw [show plan.resize slot (plan.entries[slot].count - remove_sectors) =
        (.ok (plan.entries[slot].count - remove_sectors), _) from Prod.ext resized rfl]
      exact ⟨checked, slot, _, addressed, present, Nat.pos_of_ne_zero refused.1, refused.2,
        partitions⟩
    · rw [failed]
      exact Kept.refl plan

/-- A table of slots without partitions has none in any order. -/
theorem newTable_outcome {change : Change} {made : Except Fault (Plan Digest)}
    (makes : change.makesTable = true)
    (success : ∀ next, made = .ok next → next.Sound ∧ next.entries = plan.entries ∧ plan.Vacant) :
    change.Outcome plan (replace plan made) := by
  cases made with
  | error fault => exact Kept.refl plan
  | ok next =>
    obtain ⟨sound, same, absent⟩ := success next rfl
    have no_partition : plan.partition = next.partition := by
      funext slot
      rw [partition_of_absent absent]
      exact (partition_of_absent (fun place => by rw [same]; exact absent place) slot).symm
    refine ⟨Plan.validate_eq_ok.mpr sound, ?_⟩
    cases change with
    | initializeGpt | initializeMbr | convertEmpty => exact no_partition.symm
    | add | remove | extend | shrink => cases makes

/-- Every operation on a plan that passes its check changes the addressed partition alone, or leaves
the partitions and the usable sectors as they were. -/
theorem run_outcome (change : Change) (valid : plan.validate = .ok ())
    (tidy : change.makesTable = true → plan.Tidy) : change.Outcome plan (run plan change) := by
  have sound := Plan.validate_eq_ok.mp valid
  have absent (table : change.makesTable = true) (none_kind : plan.kind = .none) :
      plan.Vacant := fun slot =>
    tidy table slot (by rw [sound.kind.none none_kind]; exact Nat.zero_le _)
  cases change with
  | initializeGpt disk_guid =>
    exact newTable_outcome rfl fun next made => initializeGpt_ok sound.sectors (absent rfl) made
  | initializeMbr disk_id =>
    exact newTable_outcome rfl fun next made => initializeMbr_ok sound.sectors (absent rfl) made
  | convertEmpty kind disk_guid disk_id =>
    exact newTable_outcome rfl fun next made => convertEmpty_ok (tidy rfl) made
  | add entry => exact add_outcome entry
  | remove number => exact remove_outcome number sound
  | extend number extra_sectors => exact extend_outcome number extra_sectors valid
  | shrink number remove_sectors => exact shrink_outcome number remove_sectors valid

theorem tidy_of_used {entries : Vector Entry max_entries} (tidy : plan.Tidy)
    (kept : ∀ place : Fin max_entries, plan.entry_count ≤ place →
      entries.get place = plan.entries.get place) :
    ({ plan with entries } : Plan Digest).Tidy :=
  fun place beyond => (congrArg Entry.present (kept place beyond)).trans (tidy place beyond)

theorem setEntry_tidy (tidy : plan.Tidy) (inside : slot.val < plan.entry_count) (entry : Entry) :
    (plan.setEntry slot entry).Tidy :=
  tidy_of_used tidy fun place beyond =>
    Vector.getElem_set_ne slot.isLt place.isLt (Nat.ne_of_lt (inside.trans_le beyond))

theorem resize_tidy (tidy : plan.Tidy) (inside : slot.val < plan.entry_count) (count : Nat) :
    (plan.resize slot count).2.Tidy := by
  rw [Plan.resize]
  split
  · exact tidy
  · exact setEntry_tidy tidy inside _

theorem slotOf_inside {number : Nat} (found : plan.slotOf number = some slot) :
    slot.val < plan.entry_count :=
  (Plan.partition_eq_some.mp (Plan.slotOf_eq_some found).2).1

theorem newTable_tidy {made : Except Fault (Plan Digest)} (tidy : plan.Tidy)
    (success : ∀ next, made = .ok next → next.Sound ∧ next.entries = plan.entries ∧ plan.Vacant) :
    (replace plan made).2.Tidy := by
  cases made with
  | error fault => exact tidy
  | ok next =>
    obtain ⟨-, same, absent⟩ := success next rfl
    intro place beyond
    change (next.entries.get place).present = false
    rw [same]
    exact absent place

/-- The operations leave no partition in a slot that is not in use. -/
theorem run_tidy (change : Change) (valid : plan.validate = .ok ()) (tidy : plan.Tidy) :
    (run plan change).2.Tidy := by
  have sound := Plan.validate_eq_ok.mp valid
  have absent (none_kind : plan.kind = .none) : plan.Vacant := fun slot =>
    tidy slot (by rw [sound.kind.none none_kind]; exact Nat.zero_le _)
  cases change with
  | initializeGpt disk_guid =>
    exact newTable_tidy tidy fun next made => initializeGpt_ok sound.sectors absent made
  | initializeMbr disk_id =>
    exact newTable_tidy tidy fun next made => initializeMbr_ok sound.sectors absent made
  | convertEmpty kind disk_guid disk_id =>
    exact newTable_tidy tidy fun next made => convertEmpty_ok tidy made
  | add entry =>
    rw [run, Plan.add]
    split
    · exact tidy
    cases found : plan.freeSlot with
    | none => exact tidy
    | some slot =>
      have inside := (Plan.freeSlot_eq_some found).1
      dsimp only
      split
      · exact setEntry_tidy tidy inside _
      · exact setEntry_tidy tidy inside _
  | remove number =>
    rw [run, Plan.remove]
    cases found : plan.slotOf number with
    | none => exact tidy
    | some slot => exact setEntry_tidy tidy (slotOf_inside found) _
  | extend number extra_sectors =>
    rw [run, Plan.extend, valid]
    dsimp only
    cases found : plan.slotOf number with
    | none => exact tidy
    | some slot =>
      dsimp only
      split
      · exact tidy
      · exact resize_tidy tidy (slotOf_inside found) _
  | shrink number remove_sectors =>
    rw [run, Plan.shrink, valid]
    dsimp only
    cases found : plan.slotOf number with
    | none => exact tidy
    | some slot =>
      dsimp only
      split
      · exact tidy
      · exact resize_tidy tidy (slotOf_inside found) _

/-- Every operation on a plan that passes its check changes the addressed partition alone, or leaves
the partitions and the usable sectors as they were.  A new table needs that no partition is hidden
in a slot that is not in use, and no operation hides one. -/
theorem run_lawful (change : Change) (valid : plan.validate = .ok ())
    (tidy : change.makesTable = true → plan.Tidy) :
    change.Outcome plan (run plan change) ∧ (plan.Tidy → (run plan change).2.Tidy) :=
  ⟨run_outcome change valid tidy, run_tidy change valid⟩

end Outcomes

/-- A boot record with one partition. -/
def onePartition : Plan Unit where
  sectors := 100000
  kind := .mbr
  last_usable := 99999
  entry_count := 4
  entries := (Vector.replicate max_entries {}).setIfInBounds 2
    { present := true, first := 2048, count := 4096, mbr_type := 7 }

theorem run_lawful_sample :
    (extend 3 none).Outcome onePartition (run onePartition (extend 3 none)) ∧
      (onePartition.Tidy → (run onePartition (extend 3 none)).2.Tidy) :=
  run_lawful (extend 3 none) (by decide +kernel) (by rintro ⟨⟩)

/-- An empty boot record with an entry in a slot that is not in use. -/
def hiddenEntry : Plan Unit where
  sectors := 100000
  kind := .mbr
  last_usable := 99999
  entry_count := 4
  entries := (Vector.replicate max_entries {}).setIfInBounds 10 { present := true }

/-- A table with more slots brings the entry in. -/
theorem convertEmpty_hidden_entry :
    hiddenEntry.validate = .ok () ∧
      (run hiddenEntry (convertEmpty .gpt (Vector.replicate 16 1) 0)).1 = .ok () ∧
      (run hiddenEntry (convertEmpty .gpt (Vector.replicate 16 1) 0)).2.validate =
        .error .PartitionRange := by
  decide +kernel

end Change

end R4OS.Gpt
