import R4OS.Gpt.Plan
import Mathlib.Logic.Function.Basic

/-!
# Partitions of plans

The table of a plan as a function from slots to partitions, what an accepted plan says about it, and
which slots the operations address.
-/

namespace R4OS.Gpt

open Block Text

namespace Plan

variable {Digest : Type}

def partition (plan : Plan Digest) (slot : Fin max_entries) : Option Entry :=
  if slot.val < plan.entry_count ∧ (plan.entries.get slot).present then
    some (plan.entries.get slot)
  else none

/-- A plan without partitions, also in the slots that its kind does not use. -/
def Vacant (plan : Plan Digest) : Prop := ∀ slot, (plan.entries.get slot).present = false

/-- A plan without partitions in slots that its kind does not use. -/
def Tidy (plan : Plan Digest) : Prop :=
  ∀ slot : Fin max_entries, plan.entry_count ≤ slot → (plan.entries.get slot).present = false

section Partitions

variable {plan next : Plan Digest} {slot : Fin max_entries} {entry : Entry}

theorem partition_eq_some : plan.partition slot = some entry ↔
    slot.val < plan.entry_count ∧ entry.present = true ∧ plan.entries.get slot = entry := by
  rw [partition]
  split_ifs with used
  · rw [Option.some.injEq]
    exact ⟨fun same => ⟨used.1, same ▸ used.2, same⟩, fun same => same.2.2⟩
  · refine ⟨fun absurdity => ?_, fun same => absurd ⟨same.1, same.2.2 ▸ same.2.1⟩ used⟩
    cases absurdity

theorem partition_eq_none : plan.partition slot = none ↔
    (slot.val < plan.entry_count → (plan.entries.get slot).present = false) := by
  rw [partition]
  split_ifs with used
  · refine ⟨fun absurdity => ?_, fun absent => ?_⟩
    · cases absurdity
    · rw [absent used.1] at used
      exact absurd used.2 Bool.false_ne_true
  · refine ⟨fun _ inside => ?_, fun _ => rfl⟩
    rw [not_and, Bool.not_eq_true] at used
    exact used inside

theorem partition_setEntry (inside : slot.val < plan.entry_count) (entry : Entry) :
    (plan.setEntry slot entry).partition =
      Function.update plan.partition slot (if entry.present then some entry else none) := by
  funext place
  rw [partition]
  by_cases same : place = slot
  · subst same
    have written : (plan.setEntry place entry).entries.get place = entry :=
      Vector.getElem_set_self place.isLt
    rw [Function.update_self, written]
    exact if_congr (and_iff_right inside) rfl rfl
  · have kept : (plan.setEntry slot entry).entries.get place = plan.entries.get place :=
      Vector.getElem_set_ne slot.isLt place.isLt (fun equal => same (Fin.ext equal.symm))
    rw [Function.update_of_ne same, kept]
    rfl

theorem used_getElem {index : Nat} (inside : index < plan.used.length)
    (slot_inside : index < max_entries) :
    plan.used[index] = plan.entries.get ⟨index, slot_inside⟩ := by
  simp only [used, List.getElem_take, Vector.getElem_toList]
  rfl

section

variable (capacity : plan.entry_count ≤ max_entries)

include capacity

theorem forall_used_iff {holds : Entry → Prop} :
    (∀ entry ∈ plan.used, entry.present = true → holds entry) ↔
      ∀ slot entry, plan.partition slot = some entry → holds entry := by
  constructor
  · intro each slot entry found
    obtain ⟨inside, present, rfl⟩ := partition_eq_some.mp found
    refine each _ ?_ present
    have listed : slot.val < plan.used.length := by rwa [used_length capacity]
    exact used_getElem listed slot.isLt ▸ List.getElem_mem listed
  · intro each entry member present
    obtain ⟨index, listed, rfl⟩ := List.getElem_of_mem member
    have inside : index < plan.entry_count := by rwa [used_length capacity] at listed
    rw [used_getElem listed (inside.trans_le capacity)] at present ⊢
    exact each ⟨index, inside.trans_le capacity⟩ _
      (partition_eq_some.mpr ⟨inside, present, rfl⟩)

theorem exists_partition (member : entry ∈ plan.used)
    (present : entry.present = true) : ∃ slot, plan.partition slot = some entry := by
  by_contra nowhere
  exact (forall_used_iff capacity).mpr (fun slot found placed => fun same : found = entry =>
    nowhere ⟨slot, same ▸ placed⟩) entry member present rfl

theorem pairwise_used_iff {related : Entry → Entry → Prop} :
    (plan.used.Pairwise fun other entry =>
      other.present = true → entry.present = true → related entry other) ↔
      ∀ earlier later, earlier < later → ∀ other entry, plan.partition earlier = some other →
        plan.partition later = some entry → related entry other := by
  rw [List.pairwise_iff_getElem]
  constructor
  · intro each earlier later before other entry first second
    obtain ⟨first_inside, first_present, rfl⟩ := partition_eq_some.mp first
    obtain ⟨second_inside, second_present, rfl⟩ := partition_eq_some.mp second
    have first_listed : earlier.val < plan.used.length := by rwa [used_length capacity]
    have second_listed : later.val < plan.used.length := by rwa [used_length capacity]
    have pair := each earlier later first_listed second_listed before
    rw [used_getElem first_listed earlier.isLt, used_getElem second_listed later.isLt] at pair
    exact pair first_present second_present
  · intro each earlier later first_listed second_listed before
    have first_inside : earlier < plan.entry_count := by rwa [used_length capacity] at first_listed
    have second_inside : later < plan.entry_count := by
      rwa [used_length capacity] at second_listed
    rw [used_getElem first_listed (first_inside.trans_le capacity),
      used_getElem second_listed (second_inside.trans_le capacity)]
    intro first_present second_present
    exact each ⟨earlier, first_inside.trans_le capacity⟩ ⟨later, second_inside.trans_le capacity⟩
      before _ _ (partition_eq_some.mpr ⟨first_inside, first_present, rfl⟩)
      (partition_eq_some.mpr ⟨second_inside, second_present, rfl⟩)

end

/-- What the check asks of a plan, with the partitions by slot. -/
theorem sound_iff : plan.Sound ↔ (3 ≤ plan.sectors ∧ plan.sectors ≤ (2 ^ 64 - 1) / 512) ∧
      (0 < plan.first_usable ∧ plan.first_usable ≤ plan.last_usable ∧
        plan.last_usable < plan.sectors) ∧
      plan.entry_count ≤ max_entries ∧ plan.KindSound ∧
      (∀ slot entry, plan.partition slot = some entry → plan.EntrySound entry) ∧
      ∀ earlier later, earlier < later → ∀ other entry, plan.partition earlier = some other →
        plan.partition later = some entry → plan.PairSound entry other := by
  constructor
  · rintro ⟨sectors, usable, capacity, kind, entries, pairs⟩
    exact ⟨sectors, usable, capacity, kind, (forall_used_iff capacity).mp entries,
      (pairwise_used_iff capacity).mp pairs⟩
  · rintro ⟨sectors, usable, capacity, kind, entries, pairs⟩
    exact ⟨sectors, usable, capacity, kind, (forall_used_iff capacity).mpr entries,
      (pairwise_used_iff capacity).mpr pairs⟩

theorem Sound.fewer (sound : plan.Sound) {entries : Vector Entry max_entries}
    (fewer : ∀ slot entry, { plan with entries }.partition slot = some entry →
      plan.partition slot = some entry) : { plan with entries }.Sound := by
  obtain ⟨sectors, usable, capacity, kind, each, pairs⟩ := sound_iff.mp sound
  refine sound_iff.mpr ⟨sectors, usable, capacity, ?_, fun slot entry found => ?_,
    fun earlier later before other entry first second => ?_⟩
  · exact ⟨kind.none, kind.mbr, kind.gpt⟩
  · obtain ⟨sized, first, last, some_kind, mbr, gpt⟩ := each slot entry (fewer slot entry found)
    exact ⟨sized, first, last, some_kind, mbr, gpt⟩
  · obtain ⟨apart, distinct⟩ := pairs earlier later before other entry
      (fewer earlier other first) (fewer later entry second)
    exact ⟨apart, distinct⟩

theorem sound_of_empty (sectors : 3 ≤ plan.sectors ∧ plan.sectors ≤ (2 ^ 64 - 1) / 512)
    (usable : 0 < plan.first_usable ∧ plan.first_usable ≤ plan.last_usable ∧
      plan.last_usable < plan.sectors)
    (capacity : plan.entry_count ≤ max_entries) (kind : plan.KindSound)
    (empty : ∀ slot, plan.partition slot = none) : plan.Sound := by
  refine sound_iff.mpr ⟨sectors, usable, capacity, kind, fun slot entry found => ?_,
    fun earlier later before other entry first second => ?_⟩
  · rw [empty slot] at found
    cases found
  · rw [empty earlier] at first
    cases first

theorem slotOf_eq_some {number : Nat} (found : plan.slotOf number = some slot) :
    slot.val + 1 = number ∧ plan.partition slot = some (plan.entries.get slot) := by
  rw [slotOf] at found
  split_ifs at found with inside missing
  rw [Option.some.injEq] at found
  rw [not_or, not_or, Bool.not_eq_true, Bool.not_eq_false'] at missing
  subst found
  refine ⟨by dsimp only; omega, partition_eq_some.mpr ⟨?_, ?_, rfl⟩⟩
  · dsimp only
    omega
  · exact missing.2.2

theorem freeSlot_eq_some (found : plan.freeSlot = some slot) :
    slot.val < plan.entry_count ∧ plan.partition slot = none := by
  have free := List.find?_some found
  rw [Bool.and_eq_true, Bool.not_eq_true', decide_eq_true_eq] at free
  exact ⟨free.1, partition_eq_none.mpr fun _ => free.2⟩

end Partitions

end Plan

end R4OS.Gpt
