import R4OS.Gpt.Repair

/-!
# Partition plans

The partition table as the editing tools hold it, the check that every plan has to pass, and the
operations that change a plan.
-/

namespace R4OS.Gpt

open Block Text

/-- Partitions begin at a multiple of these sectors. -/
def alignment_sectors : Nat := 2048

/-- Kinds of partition tables. -/
inductive Kind
  | none
  | mbr
  | gpt
  deriving DecidableEq

/-- Consecutive sectors. -/
structure Range where
  first : Nat
  count : Nat

/-- The identifier of nothing. -/
def Guid.zero : Guid := Vector.replicate 16 0

/-- A partition of a plan. -/
structure Entry where
  present : Bool := false
  first : Nat := 0
  count : Nat := 0
  type_guid : Guid := .zero
  unique_guid : Guid := .zero
  attributes : UInt64 := 0
  name : Vector UInt16 36 := Vector.replicate 36 0
  mbr_type : UInt8 := 0
  active : Bool := false
  mbr_original : Vector UInt8 16 := Vector.replicate 16 0
  deriving DecidableEq

/-- The sectors that a plan was read from, and their digest. -/
structure Source (Digest : Type) where
  spans : List Range := []
  digest : Option Digest := none

/-- A partition table that is edited. -/
structure Plan (Digest : Type) where
  sectors : Nat
  kind : Kind := .none
  blank : Bool := false
  disk_guid : Guid := .zero
  disk_id : UInt32 := 0
  first_usable : Nat := 1
  last_usable : Nat
  entry_count : Nat := 0
  primary_array : Nat := 2
  backup_array : Nat := 0
  mbr_prefix : Vector UInt8 446 := Vector.replicate 446 0
  entries : Vector Entry max_entries := Vector.replicate max_entries {}
  source : Source Digest := {}
  erase_source_gpt : Bool := false

def arraySectors (count : Nat) : Nat := (count * 128 + 511) / 512

/-- Boot record types of extended partitions. -/
def extended (value : UInt8) : Bool := value = 5 || value = 0xf || value = 0x85

namespace Plan

variable {Digest : Type} (plan : Plan Digest)

/-- The entries in use. -/
def used : List Entry := plan.entries.toList.take plan.entry_count

/-- Check what depends on the kind alone. -/
def checkKind : Except Fault Unit :=
  match plan.kind with
  | .none => refuse (plan.entry_count ≠ 0) .Geometry
  | .mbr => refuse (plan.entry_count ≠ 4) .Geometry
  | .gpt => do
      refuse (plan.disk_guid.isZero ∨ plan.entry_count = 0) .Geometry
      let count := arraySectors plan.entry_count
      refuse (plan.primary_array ≤ 1 ∨ plan.first_usable ≤ plan.primary_array ∨
        plan.first_usable - plan.primary_array < count ∨ plan.backup_array ≤ plan.last_usable ∨
        plan.sectors - 1 ≤ plan.backup_array ∨
        plan.sectors - 1 - plan.backup_array < count) .Geometry

/-- Check a partition. -/
def checkEntry (entry : Entry) : Except Fault Unit := do
  refuse (entry.count = 0 ∨ entry.first < plan.first_usable ∨ plan.last_usable < entry.first ∨
    plan.last_usable - entry.first < entry.count - 1) .PartitionRange
  match plan.kind with
  | .none => .error .Geometry
  | .mbr => refuse (entry.mbr_type = 0 ∨ entry.mbr_type = 0xee ∨ extended entry.mbr_type ∨
      2 ^ 32 - 1 < entry.first ∨ 2 ^ 32 - 1 < entry.count ∨
      2 ^ 32 - 1 + 1 < entry.first + entry.count) .MbrCapacity
  | .gpt => refuse (entry.type_guid.isZero ∨ entry.unique_guid.isZero ∨
      entry.unique_guid = plan.disk_guid) .PartitionGuid

/-- Compare a partition with an earlier one. -/
def checkPair (entry other : Entry) : Except Fault Unit :=
  if other.present then do
    refuse (entry.first < other.first + other.count ∧ other.first < entry.first + entry.count)
      .Overlap
    refuse (plan.kind = .gpt ∧ entry.unique_guid = other.unique_guid) .DuplicateGuid
  else return ()

/-- Check partitions behind those that were checked before. -/
def checkEntries : List Entry → List Entry → Except Fault Unit
  | _, [] => return ()
  | earlier, entry :: rest =>
    if entry.present then do
      plan.checkEntry entry
      earlier.forM (plan.checkPair entry)
      checkEntries (earlier ++ [entry]) rest
    else checkEntries (earlier ++ [entry]) rest

/-- Check a plan. -/
def validate : Except Fault Unit := do
  refuse (plan.sectors < 3 ∨ (2 ^ 64 - 1) / 512 < plan.sectors ∨ plan.first_usable = 0 ∨
    plan.last_usable < plan.first_usable ∨ plan.sectors ≤ plan.last_usable ∨
    max_entries < plan.entry_count) .Geometry
  plan.checkKind
  plan.checkEntries [] plan.used

def freeSlot : Option (Fin max_entries) :=
  (List.finRange max_entries).find? fun slot =>
    slot.val < plan.entry_count && !plan.entries[slot].present

def setEntry (slot : Fin max_entries) (entry : Entry) : Plan Digest :=
  { plan with entries := plan.entries.set slot entry }

/-- Add a partition; a refused one leaves an empty slot. -/
def add (entry : Entry) : Except Fault Nat × Plan Digest :=
  if !entry.present || entry.first % alignment_sectors ≠ 0 then (.error .Alignment, plan)
  else
    match plan.freeSlot with
    | none => (.error .PartitionCapacity, plan)
    | some slot =>
      match (plan.setEntry slot entry).validate with
      | .error fault => (.error fault, plan.setEntry slot {})
      | .ok () => (.ok (slot + 1), plan.setEntry slot entry)

def slotOf (number : Nat) : Option (Fin max_entries) :=
  if inside : number - 1 < max_entries then
    if number = 0 ∨ plan.entry_count < number ∨ !plan.entries[number - 1].present then none
    else some ⟨number - 1, inside⟩
  else none

/-- Remove a partition. -/
def remove (number : Nat) : Except Fault Unit × Plan Digest :=
  match plan.slotOf number with
  | none => (.error .NotFound, plan)
  | some slot => (.ok (), plan.setEntry slot {})

/-- The end of the free sectors behind a partition. -/
def growthLimit (stop : Nat) : Nat :=
  plan.used.foldl (fun limit other =>
    if other.present && stop ≤ other.first then min limit other.first else limit)
    (plan.last_usable + 1)

/-- Change the length of a partition, unless the plan would not pass its check. -/
def resize (slot : Fin max_entries) (count : Nat) : Except Fault Nat × Plan Digest :=
  match (plan.setEntry slot { plan.entries[slot] with count }).validate with
  | .error fault => (.error fault, plan)
  | .ok () => (.ok count, plan.setEntry slot { plan.entries[slot] with count })

/-- Grow a partition into the free sectors behind it. -/
def extend (number : Nat) (extra_sectors : Option Nat) : Except Fault Nat × Plan Digest :=
  match plan.validate with
  | .error fault => (.error fault, plan)
  | .ok () =>
    match plan.slotOf number with
    | none => (.error .NotFound, plan)
    | some slot =>
      let entry := plan.entries[slot]
      let stop := entry.first + entry.count
      let available := plan.growthLimit stop - stop
      let extra := extra_sectors.getD (available / alignment_sectors * alignment_sectors)
      if extra = 0 ∨ available < extra then (.error .NoSpace, plan)
      else plan.resize slot (entry.count + extra)

/-- Shrink a partition at its end. -/
def shrink (number remove_sectors : Nat) : Except Fault Nat × Plan Digest :=
  match plan.validate with
  | .error fault => (.error fault, plan)
  | .ok () =>
    match plan.slotOf number with
    | none => (.error .NotFound, plan)
    | some slot =>
      let entry := plan.entries[slot]
      if remove_sectors = 0 ∨ entry.count ≤ remove_sectors then (.error .NoSpace, plan)
      else plan.resize slot (entry.count - remove_sectors)

end Plan

section Accepted

variable {Digest : Type} {plan : Plan Digest} {entry other : Entry}

/-- What the check asks of a partition. -/
structure Plan.EntrySound (plan : Plan Digest) (entry : Entry) : Prop where
  sized : 0 < entry.count
  first : plan.first_usable ≤ entry.first
  last : entry.first + entry.count ≤ plan.last_usable + 1
  kind : plan.kind ≠ .none
  mbr : plan.kind = .mbr → entry.mbr_type ≠ 0 ∧ entry.mbr_type ≠ 0xee ∧
    extended entry.mbr_type = false ∧ entry.first < 2 ^ 32 ∧ entry.count < 2 ^ 32 ∧
    entry.first + entry.count ≤ 2 ^ 32
  gpt : plan.kind = .gpt → entry.type_guid.isZero = false ∧ entry.unique_guid.isZero = false ∧
    entry.unique_guid ≠ plan.disk_guid

/-- What the check asks of two partitions. -/
structure Plan.PairSound (plan : Plan Digest) (entry other : Entry) : Prop where
  apart : entry.first + entry.count ≤ other.first ∨ other.first + other.count ≤ entry.first
  distinct : plan.kind = .gpt → entry.unique_guid ≠ other.unique_guid

/-- What the check asks of a kind. -/
structure Plan.KindSound (plan : Plan Digest) : Prop where
  none : plan.kind = .none → plan.entry_count = 0
  mbr : plan.kind = .mbr → plan.entry_count = 4
  gpt : plan.kind = .gpt → plan.disk_guid.isZero = false ∧ 0 < plan.entry_count ∧
    1 < plan.primary_array ∧
    plan.primary_array + arraySectors plan.entry_count ≤ plan.first_usable ∧
    plan.last_usable < plan.backup_array ∧
    plan.backup_array + arraySectors plan.entry_count ≤ plan.sectors - 1

/-- What the check asks of a plan. -/
structure Plan.Sound (plan : Plan Digest) : Prop where
  sectors : 3 ≤ plan.sectors ∧ plan.sectors ≤ (2 ^ 64 - 1) / 512
  usable : 0 < plan.first_usable ∧ plan.first_usable ≤ plan.last_usable ∧
    plan.last_usable < plan.sectors
  capacity : plan.entry_count ≤ max_entries
  kind : plan.KindSound
  entries : ∀ entry ∈ plan.used, entry.present = true → plan.EntrySound entry
  pairs : plan.used.Pairwise fun other entry =>
    other.present = true → entry.present = true → plan.PairSound entry other

theorem used_length (capacity : plan.entry_count ≤ max_entries) :
    plan.used.length = plan.entry_count := by
  rw [Plan.used, List.length_take, Vector.length_toList, Nat.min_eq_left capacity]

theorem arraySectors_pos {count : Nat} (some_entries : 0 < count) : 0 < arraySectors count := by
  unfold arraySectors
  omega

theorem Plan.checkKind_eq_ok : plan.checkKind = .ok () ↔ plan.KindSound := by
  unfold Plan.checkKind
  cases kind : plan.kind with
  | none =>
    rw [refuse_eq_ok, not_not]
    exact ⟨fun empty => ⟨fun _ => empty, by simp [kind], by simp [kind]⟩, fun sound => sound.none kind⟩
  | mbr =>
    rw [refuse_eq_ok, not_not]
    exact ⟨fun four => ⟨by simp [kind], fun _ => four, by simp [kind]⟩, fun sound => sound.mbr kind⟩
  | gpt =>
    simp only [refuse_bind_eq_ok, refuse_eq_ok, not_or, Bool.not_eq_true]
    constructor
    · rintro ⟨⟨guid, some_entries⟩, places⟩
      have sectors := arraySectors_pos (Nat.pos_of_ne_zero some_entries)
      exact ⟨by simp [kind], by simp [kind], fun _ =>
        ⟨guid, by omega, by omega, by omega, by omega, by omega⟩⟩
    · intro sound
      obtain ⟨guid, some_entries, places⟩ := sound.gpt kind
      have sectors := arraySectors_pos some_entries
      exact ⟨⟨guid, by omega⟩, by omega⟩

theorem Plan.checkEntry_eq_ok : plan.checkEntry entry = .ok () ↔ plan.EntrySound entry := by
  unfold Plan.checkEntry
  rw [refuse_bind_eq_ok]
  cases kind : plan.kind with
  | none =>
    constructor
    · rintro ⟨-, ⟨⟩⟩
    · intro sound
      exact absurd kind sound.kind
  | mbr =>
    simp only [refuse_eq_ok, not_or, Bool.not_eq_true]
    constructor
    · rintro ⟨range, type, protective, other, bounds⟩
      exact ⟨by omega, by omega, by omega, by simp [kind],
        fun _ => ⟨type, protective, other, by omega, by omega, by omega⟩, by simp [kind]⟩
    · rintro ⟨sized, first, last, -, mbr, -⟩
      obtain ⟨type, protective, other, bounds⟩ := mbr kind
      exact ⟨by omega, type, protective, other, by omega, by omega, by omega⟩
  | gpt =>
    simp only [refuse_eq_ok, not_or, Bool.not_eq_true]
    constructor
    · rintro ⟨range, type, unique, disk⟩
      exact ⟨by omega, by omega, by omega, by simp [kind], by simp [kind],
        fun _ => ⟨type, unique, disk⟩⟩
    · rintro ⟨sized, first, last, -, -, gpt⟩
      obtain ⟨type, unique, disk⟩ := gpt kind
      exact ⟨by omega, type, unique, disk⟩

theorem Plan.checkPair_eq_ok :
    plan.checkPair entry other = .ok () ↔ (other.present = true → plan.PairSound entry other) := by
  unfold Plan.checkPair
  split
  · next present =>
      rw [refuse_bind_eq_ok, refuse_eq_ok]
      constructor
      · rintro ⟨apart, distinct⟩ -
        exact ⟨by omega, fun kind same => distinct ⟨kind, same⟩⟩
      · intro sound
        obtain ⟨apart, distinct⟩ := sound present
        exact ⟨by omega, fun same => distinct same.1 same.2⟩
  · next absent => exact ⟨fun _ present => absurd present absent, fun _ => rfl⟩

theorem Plan.checkEntries_eq_ok {earlier entries : List Entry} :
    plan.checkEntries earlier entries = .ok () ↔
      (∀ entry ∈ entries, entry.present = true → plan.EntrySound entry ∧
        ∀ other ∈ earlier, other.present = true → plan.PairSound entry other) ∧
      entries.Pairwise fun other entry =>
        other.present = true → entry.present = true → plan.PairSound entry other := by
  induction entries generalizing earlier with
  | nil => simp [Plan.checkEntries, pure, Except.pure]
  | cons entry rest induction =>
    rw [List.forall_mem_cons, List.pairwise_cons, Plan.checkEntries]
    split
    · next present =>
        have checks : (plan.checkEntry entry >>= fun _ => earlier.forM (plan.checkPair entry) >>=
              fun _ => plan.checkEntries (earlier ++ [entry]) rest) = .ok () ↔
            plan.EntrySound entry ∧ (∀ other ∈ earlier, other.present = true →
              plan.PairSound entry other) ∧
            plan.checkEntries (earlier ++ [entry]) rest = .ok () := by
          simp only [check_bind_eq_ok, Plan.checkEntry_eq_ok, forM_eq_ok, Plan.checkPair_eq_ok]
        rw [checks, induction]
        simp only [List.mem_append, List.mem_singleton]
        grind
    · next absent =>
        rw [induction]
        simp only [List.mem_append, List.mem_singleton]
        grind

/-- The check accepts exactly the sound plans. -/
theorem Plan.validate_eq_ok : plan.validate = .ok () ↔ plan.Sound := by
  unfold Plan.validate
  rw [refuse_bind_eq_ok]
  rw [check_bind_eq_ok, Plan.checkKind_eq_ok, Plan.checkEntries_eq_ok]
  constructor
  · rintro ⟨geometry, kind, entries, pairs⟩
    exact ⟨by omega, by omega, by omega, kind, fun entry member present =>
      (entries entry member present).1, pairs⟩
  · rintro ⟨sectors, usable, capacity, kind, entries, pairs⟩
    exact ⟨by omega, kind, fun entry member present =>
      ⟨entries entry member present, nofun⟩, pairs⟩

end Accepted

end R4OS.Gpt
