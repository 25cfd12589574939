import R4OS.Incremental.Checks
import R4OS.SubsystemCatalog.Catalog

/-!
# Installed catalogs

The catalog of a valid inventory has the entries of its subsystems.  Their identifiers and formats are
in lower case and not repeated, so that a name in any case stands for at most one of them.
-/

namespace R4OS.SubsystemCatalog

open Incremental Text
open SystemInventory (Inventory toLower validSubsystem validEntry validCanonicalId isIdByte)
open Update.Batch (eqlIgnoreCase)

def LowerCase (name : Bytes) : Prop := ∀ byte ∈ name, toLower byte = byte

/-- A catalog that was made from an inventory. -/
structure Installed (catalog : Catalog) : Prop where
  ids : catalog.entries.Pairwise fun first second => first.subsystem_id ≠ second.subsystem_id
  lower_ids : ∀ entry ∈ catalog.entries, LowerCase entry.subsystem_id
  lower_formats : ∀ entry ∈ catalog.entries, ∀ format_id ∈ entry.guest_formats, LowerCase format_id
  formats : ∀ entry ∈ catalog.entries, entry.guest_formats.Nodup

/-- The entry of a component that is a subsystem. -/
def entryOf (source : SystemInventory.Entry) : Option Entry :=
  if source.module_role ≠ some .subsystem then none
  else match source.subsystem_id, source.subsystem_display_name with
    | some subsystem_id, some display_name => some {
        subsystem_id
        host_path := source.target
        display_name
        module_name := source.name
        module_version := source.version
        guest_formats := source.guest_formats
        guest_extensions := source.guest_extensions
        guest_features := source.guest_features }
    | _, _ => none

section Names

variable {first second name : Bytes}

theorem toLower_toUpper (byte : UInt8) (lower : toLower byte = byte) :
    toLower (toUpper byte) = byte := by
  have every : ∀ number : Fin 256, toLower (UInt8.ofFin number) = UInt8.ofFin number →
      toLower (toUpper (UInt8.ofFin number)) = UInt8.ofFin number := by
    decide +kernel
  rw [← UInt8.ofFin_toFin byte] at lower ⊢
  exact every byte.toFin lower

theorem LowerCase.eq (first_lower : LowerCase first) (second_lower : LowerCase second)
    (same : eqlIgnoreCase first second = true) : first = second := by
  have mapped := beq_iff_eq.mp same
  induction first generalizing second with
  | nil => exact (List.map_eq_nil_iff.mp mapped.symm).symm
  | cons byte rest induction =>
    cases second with
    | nil => cases mapped
    | cons other rest' =>
      rw [List.map_cons, List.map_cons, List.cons.injEq] at mapped
      have equal : byte = other := by
        rw [← toLower_toUpper byte (first_lower byte (.head _)), mapped.1,
          toLower_toUpper other (second_lower other (.head _))]
      rw [equal, induction (fun byte member => first_lower byte (.tail _ member))
        (fun byte member => second_lower byte (.tail _ member))
        (beq_iff_eq.mpr mapped.2) mapped.2]

theorem LowerCase.unique (first_lower : LowerCase first) (second_lower : LowerCase second)
    (first_same : eqlIgnoreCase first name = true) (second_same : eqlIgnoreCase second name = true) :
    first = second :=
  first_lower.eq second_lower
    (beq_iff_eq.mpr ((beq_iff_eq.mp first_same).trans (beq_iff_eq.mp second_same).symm))

theorem canonical_lower {limit : Nat} (valid : validCanonicalId name limit = true) :
    LowerCase name := by
  unfold validCanonicalId at valid
  intro byte member
  have every := List.all_eq_true.mp (Bool.and_eq_true_iff.mp valid).2 byte member
  unfold isIdByte at every
  exact beq_iff_eq.mp (Bool.and_eq_true_iff.mp every).1

end Names

section Projection

variable {inventory : Inventory} {check : Bytes → HostState} {catalog : Catalog}

theorem projectEntry_ok {entries after : List Entry} {source : SystemInventory.Entry}
    (done : projectEntry check entries source = .ok after) :
    after = entries ++ (entryOf source).toList := by
  unfold projectEntry at done
  unfold entryOf
  split at done
  · next other =>
    cases done
    rw [if_pos other, Option.toList_none, List.append_nil]
  next subsystem =>
  rw [if_neg subsystem]
  split at done
  · cases done
  split at done
  · cases done
  · cases done
  cases id_eq : source.subsystem_id with
  | none =>
    rw [id_eq] at done
    cases done
  | some subsystem_id =>
    cases name_eq : source.subsystem_display_name with
    | none =>
      rw [id_eq, name_eq] at done
      cases done
    | some display_name =>
      rw [id_eq, name_eq] at done
      cases done
      rfl

theorem foldlM_projectEntry {sources : List SystemInventory.Entry} {entries after : List Entry}
    (done : sources.foldlM (projectEntry check) entries = .ok after) :
    after = entries ++ sources.filterMap entryOf := by
  induction sources generalizing entries with
  | nil =>
    cases done
    rw [List.filterMap_nil, List.append_nil]
  | cons source rest induction =>
    rw [List.foldlM_cons] at done
    obtain ⟨middle, stepped, done⟩ := bind_eq_ok.mp done
    rw [induction done, projectEntry_ok stepped, List.filterMap_cons, List.append_assoc]
    cases entryOf source with
    | none | some entry => rfl

theorem projectInstalled_entries (loaded : projectInstalled inventory check = .ok catalog) :
    catalog.entries.Perm (inventory.entries.filterMap entryOf) := by
  unfold projectInstalled at loaded
  obtain ⟨entries, folded, loaded⟩ := bind_eq_ok.mp loaded
  cases loaded
  rw [← List.nil_append (inventory.entries.filterMap entryOf), ← foldlM_projectEntry folded]
  exact List.perm_insertionSort _ _

theorem mem_projectInstalled (loaded : projectInstalled inventory check = .ok catalog)
    {entry : Entry} : entry ∈ catalog.entries ↔ ∃ source ∈ inventory.entries,
      entryOf source = some entry := by
  rw [(projectInstalled_entries loaded).mem_iff, List.mem_filterMap]

theorem entryOf_eq_some {source : SystemInventory.Entry} {entry : Entry}
    (made : entryOf source = some entry) : source.module_role = some .subsystem ∧
      source.subsystem_id = some entry.subsystem_id ∧
      source.subsystem_display_name = some entry.display_name ∧
      entry = {
        subsystem_id := entry.subsystem_id
        host_path := source.target
        display_name := entry.display_name
        module_name := source.name
        module_version := source.version
        guest_formats := source.guest_formats
        guest_extensions := source.guest_extensions
        guest_features := source.guest_features } := by
  unfold entryOf at made
  split at made
  · cases made
  next subsystem =>
  rw [not_not] at subsystem
  split at made
  · next id_eq name_eq =>
    cases made
    exact ⟨subsystem, id_eq, name_eq, rfl⟩
  · cases made

theorem projectInstalled_installed (valid : inventory.validate = true)
    (loaded : projectInstalled inventory check = .ok catalog) : Installed catalog := by
  unfold Inventory.validate at valid
  simp only [Bool.and_eq_true, List.all_eq_true, decide_eq_true_eq] at valid
  obtain ⟨⟨⟨-, -⟩, entries_valid⟩, apart⟩ := valid
  have rules : ∀ entry ∈ catalog.entries, LowerCase entry.subsystem_id ∧
      (∀ format_id ∈ entry.guest_formats, LowerCase format_id) ∧ entry.guest_formats.Nodup := by
    intro entry member
    obtain ⟨source, stored, made⟩ := (mem_projectInstalled loaded).mp member
    obtain ⟨role, id_eq, name_eq, whole⟩ := entryOf_eq_some made
    have source_valid := entries_valid source stored
    unfold validEntry at source_valid
    rw [role] at source_valid
    have subsystem := (Bool.and_eq_true_iff.mp source_valid).2
    unfold validSubsystem at subsystem
    rw [id_eq, name_eq] at subsystem
    simp only [Bool.and_eq_true, List.all_eq_true, decide_eq_true_eq] at subsystem
    have formats : entry.guest_formats = source.guest_formats := by rw [whole]
    rw [formats]
    obtain ⟨⟨⟨⟨⟨⟨⟨⟨⟨⟨-, id_valid⟩, -⟩, -⟩, -⟩, formats_valid⟩, formats_nodup⟩, -⟩, -⟩, -⟩, -⟩ := subsystem
    exact ⟨canonical_lower id_valid, fun format_id listed =>
      canonical_lower (formats_valid format_id listed), formats_nodup⟩
  refine ⟨?_, fun entry member => (rules entry member).1, fun entry member => (rules entry member).2.1,
    fun entry member => (rules entry member).2.2⟩
  refine ((projectInstalled_entries loaded).pairwise_iff fun different => Ne.symm different).mpr ?_
  refine List.Pairwise.filterMap entryOf (fun first second clash entry made other other_made => ?_)
    apart
  obtain ⟨role, id_eq, -, -⟩ := entryOf_eq_some made
  obtain ⟨other_role, other_id_eq, -, -⟩ := entryOf_eq_some other_made
  intro same
  unfold SystemInventory.entriesClash at clash
  simp [role, other_role, id_eq, other_id_eq, same] at clash

end Projection

end R4OS.SubsystemCatalog
