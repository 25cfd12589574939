import R4OS.SystemInventory.RoundTrip

/-!
# Updates of an inventory

Entries are entered and removed by target, by kind and name, and by subsystem.  The three keys
overlap, and an inventory holds each of them once.
-/

namespace R4OS.SystemInventory

open Text
open Update.Batch (eqlIgnoreCase)

/-- Whether two entries are the same component. -/
def sameIdentity (entry other : Entry) : Bool :=
  entry.kind == other.kind && eqlIgnoreCase entry.name other.name

/-- The last place of an entry with a property. -/
def lastMatch (matching : Entry → Bool) : List Entry → Option Nat
  | [] => none
  | entry :: rest =>
    match lastMatch matching rest with
    | some index => some (index + 1)
    | none => if matching entry then some 0 else none

def copyRoleMetadata (target source : Entry) : Entry where
  __ := target
  module_role := source.module_role
  subsystem_id := source.subsystem_id
  subsystem_display_name := source.subsystem_display_name
  guest_formats := source.guest_formats
  guest_extensions := source.guest_extensions
  guest_features := source.guest_features

def subsystemIdUsedByOther (inventory : Inventory) (entry : Entry) (excluded_index : Option Nat) :
    Bool :=
  entry.module_role == some .subsystem &&
    inventory.entries.zipIdx.any fun (prior, index) => excluded_index != some index &&
      prior.module_role == some .subsystem && prior.subsystem_id == entry.subsystem_id

/-- A replacement that keeps the role of the entry in its place. -/
def updatedEntry (replacement old : Entry) : Entry :=
  if replacement.module_role.isNone && old.module_role.isSome then copyRoleMetadata replacement old
  else replacement

/-- Enter a component, and tell whether it was entered. -/
def Inventory.upsert (inventory : Inventory) (replacement : Entry) : Bool × Inventory :=
  if !validEntry replacement then (false, inventory)
  else
    let target_match := lastMatch (fun entry => targetEquals entry.target replacement.target)
      inventory.entries
    let identity_match := lastMatch (sameIdentity · replacement) inventory.entries
    match target_match.bind (inventory.entries.zipIdx[·]?) with
    | some (old, index) =>
      if identity_match.any (· != index) || !sameIdentity old replacement then (false, inventory)
      else
        let updated := updatedEntry replacement old
        if !validEntry updated || subsystemIdUsedByOther inventory updated (some index) then
          (false, inventory)
        else (true, { inventory with entries := inventory.entries.set index updated })
    | none =>
      if identity_match.isSome || max_entries ≤ inventory.entries.length ||
          subsystemIdUsedByOther inventory replacement none then (false, inventory)
      else (true, { inventory with entries := inventory.entries ++ [replacement] })

def Entry.isExactly (entry : Entry) (kind : ComponentKind) (name target : Bytes) : Bool :=
  entry.kind == kind && eqlIgnoreCase entry.name name && targetEquals entry.target target

/-- Remove a component, and tell whether it was removed. -/
def Inventory.removeExact (inventory : Inventory) (kind : ComponentKind) (name target : Bytes) :
    Bool × Inventory :=
  if !inventory.validate || inventory.entries.length ≤ 1 then (false, inventory)
  else
    match inventory.entries.zipIdx.filter fun item => item.1.isExactly kind name target with
    | [(_, index)] => (true, { inventory with entries := inventory.entries.eraseIdx index })
    | _ => (false, inventory)

section Keys

variable {entry other third : Entry} {left right : Bytes}

theorem targetEquals_iff :
    targetEquals left right = true ↔ left.map foldTarget = right.map foldTarget := beq_iff_eq

theorem eqlIgnoreCase_iff :
    eqlIgnoreCase left right = true ↔ left.map toUpper = right.map toUpper := beq_iff_eq

theorem sameIdentity_iff : sameIdentity entry other = true ↔
    entry.kind = other.kind ∧ entry.name.map toUpper = other.name.map toUpper := by
  rw [sameIdentity, Bool.and_eq_true, beq_iff_eq, eqlIgnoreCase_iff]

/-- The keys that two entries of one inventory do not share. -/
theorem entriesClash_false_iff : entriesClash entry other = false ↔
    ¬targetEquals entry.target other.target = true ∧ ¬sameIdentity entry other = true ∧
      ¬(entry.module_role = some .subsystem ∧ other.module_role = some .subsystem ∧
        entry.subsystem_id = other.subsystem_id) := by
  rw [← Bool.not_eq_true, entriesClash, Bool.or_eq_true, Bool.or_eq_true, not_or, not_or, and_assoc,
    ← sameIdentity, Bool.and_eq_true, Bool.and_eq_true, beq_iff_eq, beq_iff_eq, beq_iff_eq,
    and_assoc]

theorem entriesClash_comm (entry other : Entry) :
    entriesClash entry other = false ↔ entriesClash other entry = false := by
  simp only [entriesClash_false_iff, targetEquals_iff, sameIdentity_iff]
  grind

end Keys

section Matches

variable {matching : Entry → Bool} {entries : List Entry} {index : Nat}

theorem lastMatch_none (none_found : lastMatch matching entries = none) :
    ∀ entry ∈ entries, ¬matching entry = true := by
  induction entries with
  | nil => exact List.forall_mem_nil _
  | cons entry rest induction =>
    rw [lastMatch] at none_found
    split at none_found
    · cases none_found
    · next none_behind =>
      split at none_found
      · cases none_found
      · next unmatched => exact List.forall_mem_cons.mpr ⟨unmatched, induction none_behind⟩

theorem lastMatch_some (found : lastMatch matching entries = some index) :
    ∃ front old behind, entries = front ++ old :: behind ∧ front.length = index ∧
      matching old = true := by
  induction entries generalizing index with
  | nil => cases found
  | cons entry rest induction =>
    rw [lastMatch] at found
    split at found
    · next later some_behind =>
      cases found
      obtain ⟨front, old, behind, rfl, length, matched⟩ := induction some_behind
      exact ⟨entry :: front, old, behind, rfl, congrArg Nat.succ length, matched⟩
    · split at found
      · next matched =>
        cases found
        exact ⟨[], entry, rest, rfl, rfl, matched⟩
      · cases found

end Matches

/-- Two entries with one role. -/
structure SameRole (entry other : Entry) : Prop where
  module_role : entry.module_role = other.module_role
  subsystem_id : entry.subsystem_id = other.subsystem_id
  subsystem_display_name : entry.subsystem_display_name = other.subsystem_display_name
  guest_formats : entry.guest_formats = other.guest_formats
  guest_extensions : entry.guest_extensions = other.guest_extensions
  guest_features : entry.guest_features = other.guest_features

/-- An entry with the component of a replacement, and with its role or, where it has none, the role
of an older entry. -/
structure Carries (replacement old entry : Entry) : Prop where
  name : entry.name = replacement.name
  kind : entry.kind = replacement.kind
  version : entry.version = replacement.version
  target : entry.target = replacement.target
  role : replacement.module_role ≠ none → SameRole entry replacement
  kept : replacement.module_role = none → SameRole entry old

/-- What a successful replacement leaves. -/
structure Upserted (replacement : Entry) (before after : Inventory) : Prop where
  valid : after.validate = true
  profile : after.profile = before.profile
  entries : (∃ front old behind entry, before.entries = front ++ old :: behind ∧
      after.entries = front ++ entry :: behind ∧
      targetEquals old.target replacement.target = true ∧ Carries replacement old entry) ∨
    (∀ entry ∈ before.entries, ¬targetEquals entry.target replacement.target = true) ∧
      after.entries = before.entries ++ [replacement]

/-- What a successful removal leaves. -/
structure Removed (kind : ComponentKind) (name target : Bytes) (before after : Inventory) :
    Prop where
  valid : after.validate = true
  profile : after.profile = before.profile
  entries : ∃ front removed behind, before.entries = front ++ removed :: behind ∧
    removed.isExactly kind name target = true ∧
    (∀ entry ∈ front ++ behind, ¬entry.isExactly kind name target = true) ∧
    after.entries = front ++ behind

section Laws

variable {inventory : Inventory} {replacement old entry : Entry} {front behind : List Entry}

theorem validate_iff : inventory.validate = true ↔
    inventory.entries.length ≠ 0 ∧ inventory.entries.length ≤ max_entries ∧
      (∀ entry ∈ inventory.entries, validEntry entry = true) ∧
      inventory.entries.Pairwise fun prior entry => entriesClash entry prior = false := by
  rw [Inventory.validate, Bool.and_eq_true, Bool.and_eq_true, Bool.and_eq_true, decide_eq_true_eq,
    decide_eq_true_eq, List.all_eq_true, decide_eq_true_eq, and_assoc, and_assoc]

theorem validEntry_plain (valid : validEntry entry = true) (plain : entry.module_role = none) :
    entry.subsystem_id = none ∧ entry.subsystem_display_name = none ∧ entry.guest_formats = [] ∧
      entry.guest_extensions = [] ∧ entry.guest_features = [] := by
  unfold validEntry at valid
  rw [Bool.and_eq_true, plain] at valid
  have empty := valid.2
  simp only [Bool.and_eq_true, beq_iff_eq] at empty
  obtain ⟨⟨⟨⟨id, display⟩, formats⟩, extensions⟩, features⟩ := empty
  exact ⟨id, display, formats, extensions, features⟩

theorem updatedEntry_carries (valid : validEntry replacement = true)
    (old_valid : validEntry old = true) :
    Carries replacement old (updatedEntry replacement old) := by
  unfold updatedEntry
  split
  · next kept =>
    rw [Bool.and_eq_true, Option.isNone_iff_eq_none] at kept
    exact ⟨rfl, rfl, rfl, rfl, fun role => absurd kept.1 role,
      fun _ => ⟨rfl, rfl, rfl, rfl, rfl, rfl⟩⟩
  · next taken =>
    refine ⟨rfl, rfl, rfl, rfl, fun _ => ⟨rfl, rfl, rfl, rfl, rfl, rfl⟩, fun plain => ?_⟩
    have old_plain : old.module_role = none := by
      rw [plain, Option.isNone_none, Bool.true_and, Bool.not_eq_true, Option.isSome_eq_false_iff,
        Option.isNone_iff_eq_none] at taken
      exact taken
    obtain ⟨id, display, formats, extensions, features⟩ := validEntry_plain valid plain
    obtain ⟨old_id, old_display, old_formats, old_extensions, old_features⟩ :=
      validEntry_plain old_valid old_plain
    exact ⟨plain.trans old_plain.symm, id.trans old_id.symm, display.trans old_display.symm,
      formats.trans old_formats.symm, extensions.trans old_extensions.symm,
      features.trans old_features.symm⟩

theorem subsystem_unused {excluded_index : Option Nat}
    (unused : subsystemIdUsedByOther inventory entry excluded_index = false) {place : Nat}
    {prior : Entry} (found : inventory.entries[place]? = some prior)
    (included : excluded_index ≠ some place) :
    ¬(entry.module_role = some .subsystem ∧ prior.module_role = some .subsystem ∧
      entry.subsystem_id = prior.subsystem_id) := by
  rintro ⟨mine, theirs, same⟩
  rw [subsystemIdUsedByOther, mine, beq_self_eq_true, Bool.true_and, List.any_eq_false] at unused
  refine unused (prior, place) (List.mem_zipIdx_iff_getElem?.mpr found) ?_
  rw [Bool.and_eq_true, Bool.and_eq_true, bne_iff_ne, beq_iff_eq, beq_iff_eq]
  exact ⟨⟨included, theirs⟩, same.symm⟩

theorem pairwise_split : (front ++ entry :: behind).Pairwise (fun prior entry =>
      entriesClash entry prior = false) ↔
    (front ++ behind).Pairwise (fun prior entry => entriesClash entry prior = false) ∧
      ∀ other ∈ front ++ behind, entriesClash entry other = false := by
  rw [List.pairwise_middle fun {first second} apart => (entriesClash_comm second first).mp apart,
    List.pairwise_cons, and_comm]
  refine and_congr_right fun _ => forall₂_congr fun other _ => entriesClash_comm other entry

theorem target_once (apart : ∀ other ∈ front ++ behind, entriesClash old other = false)
    (matched : targetEquals old.target replacement.target = true) :
    ∀ other ∈ front ++ behind, ¬targetEquals replacement.target other.target = true := by
  intro other member same
  refine (entriesClash_false_iff.mp (apart other member)).1 (targetEquals_iff.mpr ?_)
  exact (targetEquals_iff.mp matched).trans (targetEquals_iff.mp same)

theorem replaced_valid {updated : Entry} (valid : inventory.validate = true)
    (split : inventory.entries = front ++ old :: behind)
    (matched : targetEquals old.target updated.target = true)
    (identity : sameIdentity old updated = true) (updated_valid : validEntry updated = true)
    (unused : subsystemIdUsedByOther inventory updated (some front.length) = false) :
    ({ inventory with entries := front ++ updated :: behind } : Inventory).validate = true := by
  obtain ⟨-, few, entries_valid, apart⟩ := validate_iff.mp valid
  rw [split] at few entries_valid apart
  obtain ⟨others, old_apart⟩ := pairwise_split.mp apart
  refine validate_iff.mpr ⟨?_, ?_, ?_, pairwise_split.mpr ⟨others, fun other member => ?_⟩⟩
  · simp
  · rw [List.length_append, List.length_cons] at few ⊢
    exact few
  · rw [List.forall_mem_append, List.forall_mem_cons] at entries_valid ⊢
    exact ⟨entries_valid.1, updated_valid, entries_valid.2.2⟩
  · obtain ⟨target, names, -⟩ := entriesClash_false_iff.mp (old_apart other member)
    refine entriesClash_false_iff.mpr
      ⟨target_once old_apart matched other member, fun same => names ?_, ?_⟩
    · rw [sameIdentity_iff] at identity same ⊢
      exact ⟨identity.1.trans same.1, identity.2.trans same.2⟩
    · rcases List.mem_append.mp member with before | after
      · obtain ⟨place, found⟩ := List.mem_iff_getElem?.mp before
        have bound := (List.getElem?_eq_some_iff.mp found).1
        refine @subsystem_unused _ _ _ unused place other ?_ ?_
        · rw [split, List.getElem?_append_left bound, found]
        · rw [ne_eq, Option.some.injEq]
          exact Nat.ne_of_gt bound
      · obtain ⟨place, found⟩ := List.mem_iff_getElem?.mp after
        refine @subsystem_unused _ _ _ unused (front.length + (place + 1)) other ?_ ?_
        · rw [split, List.getElem?_append_right (Nat.le_add_right _ _), Nat.add_sub_cancel_left,
            List.getElem?_cons_succ, found]
        · rw [ne_eq, Option.some.injEq]
          omega

theorem appended_valid (valid : inventory.validate = true)
    (room : inventory.entries.length < max_entries)
    (new_target : ∀ entry ∈ inventory.entries, ¬targetEquals entry.target replacement.target = true)
    (new_identity : ∀ entry ∈ inventory.entries, ¬sameIdentity entry replacement = true)
    (new_valid : validEntry replacement = true)
    (unused : subsystemIdUsedByOther inventory replacement none = false) :
    ({ inventory with
      entries := inventory.entries ++ [replacement] } : Inventory).validate = true := by
  obtain ⟨-, -, entries_valid, apart⟩ := validate_iff.mp valid
  refine validate_iff.mpr ⟨?_, ?_, ?_, pairwise_split.mpr ⟨?_, ?_⟩⟩
  · simp
  · rw [List.length_append, List.length_singleton]
    exact room
  · rw [List.forall_mem_append, List.forall_mem_singleton]
    exact ⟨entries_valid, new_valid⟩
  · rw [List.append_nil]
    exact apart
  · rw [List.append_nil]
    intro other member
    obtain ⟨place, found⟩ := List.mem_iff_getElem?.mp member
    rw [entriesClash_comm, entriesClash_false_iff]
    refine ⟨new_target other member, new_identity other member, fun ⟨theirs, mine, same⟩ => ?_⟩
    exact subsystem_unused unused found (Option.some_ne_none place).symm ⟨mine, theirs, same.symm⟩

theorem upsert_upserted {after : Inventory} (valid : inventory.validate = true)
    (done : inventory.upsert replacement = (true, after)) :
    Upserted replacement inventory after := by
  obtain ⟨-, -, entries_valid, -⟩ := validate_iff.mp valid
  unfold Inventory.upsert at done
  split at done
  · cases done
  next replacement_valid =>
  rw [Bool.not_eq_true, Bool.not_eq_false'] at replacement_valid
  dsimp only at done
  split at done
  · next old index matched =>
    obtain ⟨place, found, present⟩ := Option.bind_eq_some_iff.mp matched
    rw [List.getElem?_zipIdx, Nat.zero_add] at present
    obtain ⟨entry, at_place, same⟩ := Option.map_eq_some_iff.mp present
    cases same
    obtain ⟨front, first, behind, split_eq, length, target⟩ := lastMatch_some found
    have first_eq : first = old := by
      rw [split_eq, ← length, List.getElem?_append_right .refl, Nat.sub_self] at at_place
      exact Option.some.inj at_place
    subst first_eq
    split at done
    · cases done
    next identity =>
    rw [Bool.not_eq_true, Bool.or_eq_false_iff, Bool.not_eq_false'] at identity
    split at done
    · cases done
    next accepted =>
    rw [Bool.not_eq_true, Bool.or_eq_false_iff, Bool.not_eq_false'] at accepted
    cases done
    have old_valid : validEntry first = true := entries_valid first (split_eq ▸ by simp)
    have carries := updatedEntry_carries replacement_valid old_valid
    have entries : inventory.entries.set index (updatedEntry replacement first) =
        front ++ updatedEntry replacement first :: behind := by
      rw [split_eq, ← length, List.set_append_right _ _ .refl, Nat.sub_self]
      rfl
    rw [entries]
    refine ⟨replaced_valid valid split_eq ?_ ?_ accepted.1 (length ▸ accepted.2), rfl,
      .inl ⟨front, first, behind, _, split_eq, rfl, target, carries⟩⟩
    · rw [carries.target]
      exact target
    · rw [sameIdentity, carries.kind, carries.name]
      exact identity.2
  · next unmatched =>
    split at done
    · cases done
    next accepted =>
    rw [Bool.not_eq_true, Bool.or_eq_false_iff, Bool.or_eq_false_iff, Option.isSome_eq_false_iff,
      Option.isNone_iff_eq_none, decide_eq_false_iff_not, Nat.not_le] at accepted
    obtain ⟨⟨no_identity, room⟩, unused⟩ := accepted
    cases done
    have no_target : lastMatch (fun entry => targetEquals entry.target replacement.target)
        inventory.entries = none := by
      cases found : lastMatch (fun entry => targetEquals entry.target replacement.target)
          inventory.entries with
      | none => rfl
      | some index =>
        obtain ⟨front, first, behind, split_eq, length, -⟩ := lastMatch_some found
        rw [found, Option.bind_some, List.getElem?_zipIdx, split_eq, ← length,
          List.getElem?_append_right .refl, Nat.sub_self] at unmatched
        cases unmatched
    have new_target := lastMatch_none no_target
    exact ⟨appended_valid valid room new_target (lastMatch_none no_identity) replacement_valid
      unused, rfl, .inr ⟨new_target, rfl⟩⟩

theorem upsert_refused {after : Inventory}
    (refused : inventory.upsert replacement = (false, after)) : after = inventory := by
  unfold Inventory.upsert at refused
  split at refused
  · cases refused
    rfl
  dsimp only at refused
  split at refused
  · split at refused
    · cases refused
      rfl
    split at refused
    · cases refused
      rfl
    · cases refused
  · split at refused
    · cases refused
      rfl
    · cases refused

theorem removeExact_removed {kind : ComponentKind} {name target : Bytes} {after : Inventory}
    (done : inventory.removeExact kind name target = (true, after)) :
    Removed kind name target inventory after := by
  unfold Inventory.removeExact at done
  split at done
  · cases done
  next accepted =>
  rw [Bool.not_eq_true, Bool.or_eq_false_iff, Bool.not_eq_false', decide_eq_false_iff_not,
    Nat.not_le] at accepted
  obtain ⟨valid, several⟩ := accepted
  obtain ⟨-, few, entries_valid, apart⟩ := validate_iff.mp valid
  split at done
  · next found index matched =>
    cases done
    have chosen : (found, index) ∈ inventory.entries.zipIdx.filter
        fun item => item.1.isExactly kind name target := by
      rw [matched]
      exact List.mem_singleton_self _
    obtain ⟨member, exactly⟩ := List.mem_filter.mp chosen
    have at_index : inventory.entries[index]? = some found := List.mem_zipIdx_iff_getElem?.mp member
    obtain ⟨bound, at_place⟩ := List.getElem?_eq_some_iff.mp at_index
    have split_eq : inventory.entries = inventory.entries.take index ++
        found :: inventory.entries.drop (index + 1) := by
      rw [← at_place, List.cons_getElem_drop_succ, List.take_append_drop]
    have only {place : Nat} {entry : Entry} (at_entry : inventory.entries[place]? = some entry)
        (also : entry.isExactly kind name target = true) : place = index := by
      have listed : (entry, place) ∈ inventory.entries.zipIdx.filter
          fun item => item.1.isExactly kind name target :=
        List.mem_filter.mpr ⟨List.mem_zipIdx_iff_getElem?.mpr at_entry, also⟩
      rw [matched, List.mem_singleton] at listed
      exact (Prod.mk.inj listed).2
    have entries : inventory.entries.eraseIdx index =
        inventory.entries.take index ++ inventory.entries.drop (index + 1) :=
      List.eraseIdx_eq_take_drop_succ _ _
    refine ⟨?_, rfl, inventory.entries.take index, found, inventory.entries.drop (index + 1),
      split_eq, exactly, fun entry inside also => ?_, entries⟩
    · rw [entries]
      rw [split_eq] at entries_valid apart
      refine validate_iff.mpr ⟨?_, ?_, ?_, (pairwise_split.mp apart).1⟩
      · rw [List.length_append, List.length_take, List.length_drop]
        omega
      · rw [List.length_append, List.length_take, List.length_drop]
        omega
      · rw [List.forall_mem_append, List.forall_mem_cons] at entries_valid
        exact List.forall_mem_append.mpr ⟨entries_valid.1, entries_valid.2.2⟩
    · rcases List.mem_append.mp inside with before | behind
      · obtain ⟨place, present⟩ := List.mem_iff_getElem?.mp before
        have low : place < index :=
          (List.getElem?_eq_some_iff.mp present).1.trans_le (List.length_take_le _ _)
        rw [List.getElem?_take_of_lt low] at present
        exact Nat.ne_of_lt low (only present also)
      · obtain ⟨place, present⟩ := List.mem_iff_getElem?.mp behind
        rw [List.getElem?_drop] at present
        have same := only present also
        omega
  · cases done

theorem removeExact_refused {kind : ComponentKind} {name target : Bytes} {after : Inventory}
    (refused : inventory.removeExact kind name target = (false, after)) : after = inventory := by
  unfold Inventory.removeExact at refused
  split at refused
  · cases refused
    rfl
  split at refused
  · cases refused
  · cases refused
    rfl

/-- Updates of a valid inventory enter or remove one component, or they change nothing. -/
theorem updates_lawful (valid : inventory.validate = true) (replacement : Entry)
    (kind : ComponentKind) (name target : Bytes) :
    ((∃ after, inventory.upsert replacement = (true, after) ∧
          Upserted replacement inventory after) ∨
        inventory.upsert replacement = (false, inventory)) ∧
      ((∃ after, inventory.removeExact kind name target = (true, after) ∧
          Removed kind name target inventory after) ∨
        inventory.removeExact kind name target = (false, inventory)) := by
  constructor
  · obtain ⟨done, after, result⟩ : ∃ done after, inventory.upsert replacement = (done, after) :=
      ⟨_, _, rfl⟩
    cases done with
    | true => exact .inl ⟨after, result, upsert_upserted valid result⟩
    | false => exact .inr (upsert_refused result ▸ result)
  · obtain ⟨done, after, result⟩ : ∃ done after,
        inventory.removeExact kind name target = (done, after) := ⟨_, _, rfl⟩
    cases done with
    | true => exact .inl ⟨after, result, removeExact_removed result⟩
    | false => exact .inr (removeExact_refused result ▸ result)

/-- What is done with an inventory. -/
inductive UpdateCall
  | upsert (replacement : Entry)
  | removeExact (kind : ComponentKind) (name target : Bytes)

def Inventory.call (inventory : Inventory) : UpdateCall → Inventory
  | .upsert replacement => (inventory.upsert replacement).2
  | .removeExact kind name target => (inventory.removeExact kind name target).2

/-- An inventory that passes its check, and that the scanner reads. -/
structure Readable (inventory : Inventory) : Prop where
  valid : inventory.validate = true
  scannable : ScannableInventory inventory

theorem Readable.of_parse {text : Bytes} (parsed : Inventory.parse text = some inventory) :
    Readable inventory := by
  simp only [Inventory.parse, Option.bind_eq_bind, Option.bind_eq_some_iff, Prod.exists,
    Option.guard_eq_some', exists_const, Option.pure_def, Option.some.injEq] at parsed
  obtain ⟨read, rest, read_eq, valid, rfl⟩ := parsed
  exact ⟨valid, readInventory_yields _ _ _ read_eq⟩

theorem Readable.parse (readable : Readable inventory) :
    Inventory.parse (inventoryText inventory) = some inventory := by
  obtain ⟨nonempty, fits⟩ := Inventory.validate_count readable.valid
  have read := readInventory_reads nonempty fits fun entry member =>
    validEntry_scannable (Inventory.validate_entry readable.valid entry member)
      (readable.scannable entry member).1 (readable.scannable entry member).2
  rw [ReadsWhole] at read
  simp [Inventory.parse, stripBom_inventoryText nonempty, read, readable.valid, guard_true]

theorem Readable.upsert (readable : Readable inventory) {replacement : Entry}
    (names : ScannableNames replacement) : Readable (inventory.upsert replacement).2 := by
  cases done : inventory.upsert replacement with
  | mk accepted after =>
    cases accepted with
    | false => exact upsert_refused done ▸ readable
    | true =>
      have upserted := upsert_upserted readable.valid done
      refine ⟨upserted.valid, fun entry member => ?_⟩
      rcases upserted.entries with ⟨front, old, behind, own, before, placed, -, carries⟩ | ⟨-, placed⟩
      · rw [placed] at member
        rcases List.mem_append.mp member with prior | later
        · exact readable.scannable entry (before ▸ List.mem_append_left _ prior)
        · rcases List.mem_cons.mp later with rfl | later
          · exact ⟨carries.name ▸ names.1, carries.target ▸ names.2⟩
          · exact readable.scannable entry (before ▸ List.mem_append_right _ (.tail _ later))
      · rw [placed] at member
        rcases List.mem_append.mp member with prior | last
        · exact readable.scannable entry prior
        · exact List.mem_singleton.mp last ▸ names

theorem Readable.removeExact (readable : Readable inventory) (kind : ComponentKind)
    (name target : Bytes) : Readable (inventory.removeExact kind name target).2 := by
  cases done : inventory.removeExact kind name target with
  | mk accepted after =>
    cases accepted with
    | false => exact removeExact_refused done ▸ readable
    | true =>
      obtain ⟨valid, -, front, removed, behind, before, -, -, left⟩ := removeExact_removed done
      refine ⟨valid, fun entry member => readable.scannable entry ?_⟩
      simp_all
      tauto

/-- An inventory that was loaded and then updated with names that the scanner takes is loaded again
from what is stored. -/
theorem updates_read_back {text stored : Bytes} {capacity : Nat} {calls : List UpdateCall}
    (loaded : Inventory.parse text = some inventory)
    (names : ∀ replacement, .upsert replacement ∈ calls → ScannableNames replacement)
    (rendered : (calls.foldl Inventory.call inventory).render capacity = some stored) :
    Inventory.parse stored = some (calls.foldl Inventory.call inventory) := by
  have readable : Readable (calls.foldl Inventory.call inventory) := by
    have start := Readable.of_parse loaded
    clear loaded rendered
    induction calls generalizing inventory with
    | nil => exact start
    | cons call rest induction =>
      refine induction (fun replacement later => names replacement (.tail _ later)) ?_
      cases call with
      | upsert replacement => exact start.upsert (names replacement (.head _))
      | removeExact kind name target => exact start.removeExact kind name target
  unfold Inventory.render at rendered
  split at rendered
  · cases rendered
    exact readable.parse
  · cases rendered

end Laws

/-- The kernel and an application. -/
def sampleInstalled : Inventory where
  profile := .slim
  entries :=
    [ { name := ascii "KERNEL", kind := .kernel, version := ascii "0.1.0",
        target := ascii "/boot/r4os.elf" },
      { name := ascii "TERMINAL", kind := .r4x, version := ascii "0.1.3",
        target := ascii "/R4OS/TERMINAL.R4X" } ]

def sampleReplacement : Entry where
  name := ascii "Terminal"
  kind := .r4x
  version := ascii "0.2.0"
  target := ascii "\\r4os\\terminal.r4x"

theorem updates_lawful_sample :
    (∃ after, sampleInstalled.upsert sampleReplacement = (true, after) ∧
        Upserted sampleReplacement sampleInstalled after) ∧
      ∃ after, sampleInstalled.removeExact .r4x (ascii "terminal") (ascii "/r4os/terminal.r4x") =
          (true, after) ∧
        Removed .r4x (ascii "terminal") (ascii "/r4os/terminal.r4x") sampleInstalled after := by
  have valid : sampleInstalled.validate = true := by decide
  obtain ⟨entered, removed⟩ := updates_lawful valid sampleReplacement .r4x (ascii "terminal")
    (ascii "/r4os/terminal.r4x")
  refine ⟨entered.resolve_right fun refused => ?_, removed.resolve_right fun refused => ?_⟩
  · exact absurd (congrArg Prod.fst refused) (by decide)
  · exact absurd (congrArg Prod.fst refused) (by decide)

def sampleCall : UpdateCall :=
  .upsert { sampleReplacement with target := ascii "/r4os/terminal.r4x" }

theorem updates_read_back_sample :
    Inventory.parse (inventoryText (sampleInstalled.call sampleCall)) =
      some (sampleInstalled.call sampleCall) := by
  have loaded : Inventory.parse (inventoryText sampleInstalled) = some sampleInstalled :=
    Readable.parse ⟨by decide, List.forall_mem_cons.mpr
      ⟨⟨scannable_of_decide (by decide), scannable_of_decide (by decide)⟩, List.forall_mem_singleton.mpr
        ⟨scannable_of_decide (by decide), scannable_of_decide (by decide)⟩⟩⟩
  have rendered : ([sampleCall].foldl Inventory.call sampleInstalled).render 65536 =
      some (inventoryText (sampleInstalled.call sampleCall)) := by decide +kernel
  refine updates_read_back loaded (fun replacement member => ?_) rendered
  cases List.mem_singleton.mp member
  exact ⟨scannable_of_decide (by decide), scannable_of_decide (by decide)⟩

end R4OS.SystemInventory
