import R4OS.Gpt.Commit

/-!
# What committed bytes say

The parser reads every field of a committed header, entry and boot record back.
-/

namespace R4OS.Gpt

open Block Text

section Headers

variable {Digest : Type} {plan : Plan Digest} {current other entries checksum : Nat}

/-- A checksum that was computed over its own field as zero is accepted. -/
theorem headerCrc_put {fields : Bytes} (sized : fields.length = 512)
    (blank : slice fields 16 4 = [0, 0, 0, 0]) :
    headerCrc (put fields 16 (leBytes 4 (crc (slice fields 0 92)))) 92 = crc (slice fields 0 92) := by
  have inside : 16 + (leBytes 4 (crc (slice fields 0 92))).length ≤ fields.length := by
    rw [leBytes_length]
    omega
  have split : slice fields 0 92 = slice fields 0 16 ++ (slice fields 16 4 ++ slice fields 20 72) := by
    rw [← slice_add fields 16 4 72, ← slice_add fields 0 16 76]
  rw [headerCrc, slice_put_other inside (by rw [leBytes_length]; omega),
    slice_put_other inside (by rw [leBytes_length]; omega)]
  conv_rhs => rw [split, blank, crc, Crc32.update_append, Crc32.update_append]

@[simp] theorem signature_length : signature.length = 8 := by decide

theorem headerFields_length :
    (plan.headerFields current other entries checksum).length = 512 := by
  simp [Plan.headerFields, signature_length]

theorem header_length : (plan.header current other entries checksum).length = 512 :=
  put_sized headerFields_length (by rw [leBytes_length]; omega)

theorem slice_header {place size : Nat} (beside : place + size ≤ 16 ∨ 20 ≤ place) :
    slice (plan.header current other entries checksum) place size =
      slice (plan.headerFields current other entries checksum) place size :=
  slice_put_other (by rw [leBytes_length, headerFields_length]; omega)
    (by rw [leBytes_length]; omega)

theorem header_size_eq : readLe 4 (plan.header current other entries checksum) 12 = 92 := by
  refine readLe_eq ?_ (by decide)
  rw [slice_header (by omega)]
  simp [Plan.headerFields, slice_append_right, slice_append_left]

theorem header_framed : Framed (plan.header current other entries checksum) where
  length := header_length.ge
  start := by
    rw [slice_header (by omega), Plan.headerFields, slice_append_left signature_length]
  revision := by
    refine readLe_eq ?_ (by decide)
    rw [slice_header (by omega)]
    simp [Plan.headerFields, slice_append_right, slice_append_left]
  header_size := by
    rw [header_size_eq]
    decide
  reserved := by
    refine readLe_eq ?_ (by decide)
    rw [slice_header (by omega)]
    simp [Plan.headerFields, slice_append_right, slice_append_left]
  checksum := by
    have blank : slice (plan.headerFields current other entries checksum) 16 4 = [0, 0, 0, 0] := by
      simp [Plan.headerFields, slice_append_right, slice_append_left]
      rfl
    have stored : readLe 4 (plan.header current other entries checksum) 16 =
        crc (slice (plan.headerFields current other entries checksum) 0 92) :=
      readLe_put (by rw [headerFields_length]; omega) (crc_lt _)
    rw [header_size_eq, stored]
    exact headerCrc_put headerFields_length blank

def Plan.fields (plan : Plan Digest) (current other entries checksum : Nat) : Header where
  disk_guid := plan.disk_guid
  current_lba := current
  backup_lba := other
  first_usable_lba := plan.first_usable
  last_usable_lba := plan.last_usable
  entries_lba := entries
  entry_count := plan.entry_count
  entry_size := 128
  entries_crc32 := checksum

theorem header_decode (current_lt : current < 256 ^ 8) (other_lt : other < 256 ^ 8)
    (entries_lt : entries < 256 ^ 8) (checksum_lt : checksum < 256 ^ 4)
    (first_lt : plan.first_usable < 256 ^ 8) (last_lt : plan.last_usable < 256 ^ 8)
    (count_lt : plan.entry_count < 256 ^ 4) :
    Header.decode (plan.header current other entries checksum) =
      plan.fields current other entries checksum := by
  have word {place size value : Nat} (beside : place + size ≤ 16 ∨ 20 ≤ place)
      (bound : value < 256 ^ size)
      (found : slice (plan.headerFields current other entries checksum) place size =
        leBytes size value) :
      readLe size (plan.header current other entries checksum) place = value :=
    readLe_eq ((slice_header beside).trans found) bound
  have guid : fixed 16 (plan.header current other entries checksum) 56 = plan.disk_guid := by
    refine fixed_eq ((slice_header (by omega)).trans ?_)
    simp [Plan.headerFields, slice_append_right, slice_append_left]
  unfold Header.decode Plan.fields
  rw [guid, word (by omega) current_lt, word (by omega) other_lt, word (by omega) first_lt,
    word (by omega) last_lt, word (by omega) entries_lt, word (by omega) count_lt,
    word (by omega) (by decide : 128 < 256 ^ 4), word (by omega) checksum_lt] <;>
    simp [Plan.headerFields, slice_append_right, slice_append_left]

end Headers

section Entries

variable {entry : Entry} {header : Header} {array : Bytes} {slot : Nat}

/-- What an entry of a GUID table keeps of a partition. -/
def Entry.gptImage (entry : Entry) : Entry :=
  if entry.present then {
    present := true
    first := entry.first
    count := entry.count
    type_guid := entry.type_guid
    unique_guid := entry.unique_guid
    attributes := entry.attributes
    name := entry.name }
  else {}

def nameBytes (name : Vector UInt16 36) : Bytes :=
  name.toList.flatMap fun unit => leBytes 2 unit.toNat

@[simp] theorem nameBytes_length (name : Vector UInt16 36) : (nameBytes name).length = 72 := by
  rw [nameBytes, flatMap_length fun unit _ => leBytes_length 2 unit.toNat, Vector.length_toList]

theorem entryBytes_present (present : entry.present = true) :
    entryBytes entry = entry.type_guid.toList ++ (entry.unique_guid.toList ++
      (leBytes 8 entry.first ++ (leBytes 8 (entry.first + entry.count - 1) ++
        (leBytes 8 entry.attributes.toNat ++ nameBytes entry.name)))) := if_pos present

theorem entryBytes_absent (absent : ¬entry.present = true) : entryBytes entry = zeros 128 :=
  if_neg absent

@[simp] theorem entryBytes_length (entry : Entry) : (entryBytes entry).length = 128 := by
  by_cases present : entry.present = true
  · rw [entryBytes_present present]
    simp
  · rw [entryBytes_absent present, zeros_length]

theorem nameUnits_eq {raw : Bytes} {name : Vector UInt16 36}
    (found : slice raw 56 72 = nameBytes name) : nameUnits raw = name := by
  ext index bound
  have unit : slice (nameBytes name) (index * 2) 2 = leBytes 2 name[index].toNat := by
    have item : name.toList[index]? = some name[index] := by
      rw [List.getElem?_eq_getElem (by rwa [Vector.length_toList]), Vector.getElem_toList]
    have record := @slice_flatMap 2 UInt16 (fun unit => leBytes 2 unit.toNat) name.toList [] _ _
      (fun unit _ => leBytes_length 2 unit.toNat) item
    rwa [List.append_nil] at record
  have read : readLe 2 raw (56 + index * 2) = name[index].toNat := by
    rw [← found, slice_slice raw (by omega)] at unit
    exact readLe_eq unit name[index].toNat_lt
  simp [nameUnits, read, UInt16.ofNat_toNat]

theorem readGptEntry_eq (found : slice array (slot * 128) 128 = entryBytes entry)
    (size : header.entry_size = 128) (last_lt : header.last_usable_lba < 256 ^ 8)
    (fits : entry.present = true → entry.type_guid.isZero = false ∧ 0 < entry.count ∧
      header.first_usable_lba ≤ entry.first ∧
      entry.first + entry.count ≤ header.last_usable_lba + 1) :
    readGptEntry header array slot = .ok entry.gptImage := by
  have long : refuse ((entryBytes entry).length < header.entry_size ∨
      (entryBytes entry).length < minimum_entry_size) .ShortEntry = .ok () := by
    rw [refuse_eq_ok, entryBytes_length, size]
    decide
  unfold readGptEntry parsePartition
  rw [found, Entry.gptImage, long]
  by_cases present : entry.present = true
  · obtain ⟨type, sized, first, last⟩ := fits present
    have type_eq : slice (entryBytes entry) 0 16 = entry.type_guid.toList := by
      rw [entryBytes_present present, slice_append_left (Vector.length_toList)]
    have unique_eq : slice (entryBytes entry) 16 16 = entry.unique_guid.toList := by
      rw [entryBytes_present present]
      simp [slice_append_right, slice_append_left]
    have first_eq : readLe 8 (entryBytes entry) 32 = entry.first := by
      refine readLe_eq ?_ (by omega)
      rw [entryBytes_present present]
      simp [slice_append_right, slice_append_left]
    have last_eq : readLe 8 (entryBytes entry) 40 = entry.first + entry.count - 1 := by
      refine readLe_eq ?_ (by omega)
      rw [entryBytes_present present]
      simp [slice_append_right, slice_append_left]
    have attributes_eq : readLe 8 (entryBytes entry) 48 = entry.attributes.toNat := by
      refine readLe_eq ?_ entry.attributes.toNat_lt
      rw [entryBytes_present present]
      simp [slice_append_right, slice_append_left]
    have name_eq : slice (entryBytes entry) 56 72 = nameBytes entry.name := by
      rw [entryBytes_present present]
      have whole := slice_all (nameBytes entry.name)
      rw [nameBytes_length] at whole
      simp [slice_append_right, whole]
    have some_type : ¬allZero (slice (entryBytes entry) 0 16) = true := by
      rw [type_eq]
      exact Bool.eq_false_iff.mp type
    have range : refuse (entry.first < header.first_usable_lba ∨
        entry.first + entry.count - 1 < entry.first ∨
        header.last_usable_lba < entry.first + entry.count - 1) .BadPartitionRange = .ok () := by
      rw [refuse_eq_ok]
      omega
    have count_eq : entry.first + entry.count - 1 - entry.first + 1 = entry.count := by omega
    rw [if_pos present]
    simp only [ok_bind, if_neg some_type, first_eq, last_eq, range, fixed_eq type_eq,
      fixed_eq unique_eq, attributes_eq, nameUnits_eq name_eq, Partition.sectorCount, pure,
      Except.pure, count_eq, UInt64.ofNat_toNat]
  · have no_type : allZero (slice (entryBytes entry) 0 16) = true := by
      rw [entryBytes_absent present]
      decide
    rw [if_neg present]
    simp only [ok_bind, if_pos no_type]
    rfl

end Entries

theorem mapM_ok {Item Result : Type} {step : Item → Except Fault Result} {value : Item → Result}
    {items : List Item} (steps : ∀ item ∈ items, step item = .ok (value item)) :
    items.mapM step = .ok (items.map value) := by
  rw [mapM_eq_ok, List.forall₂_map_right_iff]
  exact List.forall₂_same.mpr steps

theorem map_range_getD {Item : Type} (items : List Item) (default : Item) :
    (List.range items.length).map (fun index => items.getD index default) = items := by
  apply List.ext_getElem
  · simp
  · intro index _ bound
    simp [List.getElem?_eq_getElem bound]

section Arrays

variable {Digest : Type} {plan : Plan Digest} {header : Header}

theorem entries_length (capacity : plan.entry_count ≤ max_entries) :
    (plan.used.flatMap entryBytes).length = plan.entry_count * 128 := by
  rw [flatMap_length fun entry _ => entryBytes_length entry, used_length capacity]

theorem arrayBytes_length (capacity : plan.entry_count ≤ max_entries) :
    plan.arrayBytes.length = sector_size * arraySectors plan.entry_count := by
  rw [Plan.arrayBytes, List.length_append, entries_length capacity, zeros_length, sector_size,
    arraySectors]
  omega

/-- What the header says of the entries. -/
structure Announces (header : Header) (plan : Plan Digest) : Prop where
  disk_guid : header.disk_guid = plan.disk_guid
  first_usable : header.first_usable_lba = plan.first_usable
  last_usable : header.last_usable_lba = plan.last_usable
  entry_count : header.entry_count = plan.entry_count
  entry_size : header.entry_size = 128
  checksum : header.entries_crc32 = plan.checksum

theorem Announces.sectors (announces : Announces header plan) :
    header.entrySectors = arraySectors plan.entry_count := by
  rw [Header.entrySectors, Header.entryBytes, announces.entry_count, announces.entry_size]
  rfl

theorem readEntries_eq (announces : Announces header plan) (kind : plan.kind = .gpt)
    (sound : plan.Sound) :
    readEntries header plan.arrayBytes plan.arrayBytes = .ok (plan.used.map Entry.gptImage) := by
  have bytes : header.entryBytes = plan.entry_count * 128 := by
    rw [Header.entryBytes, announces.entry_count, announces.entry_size]
  have intact : ¬(plan.arrayBytes.take header.entryBytes ≠ plan.arrayBytes.take header.entryBytes ∨
      crc (plan.arrayBytes.take header.entryBytes) ≠ header.entries_crc32) := by
    rw [bytes, announces.checksum, Plan.checksum]
    simp
  have last_lt : header.last_usable_lba < 256 ^ 8 := by
    have bound := sound.usable.2.2
    have sectors := sound.sectors.2
    rw [announces.last_usable]
    omega
  have slots : ∀ slot ∈ List.range header.entry_count,
      readGptEntry header plan.arrayBytes slot = .ok (plan.used.getD slot {}).gptImage := by
    intro slot member
    have inside : slot < plan.used.length := by
      rw [used_length sound.capacity, ← announces.entry_count]
      exact List.mem_range.mp member
    have found : plan.used[slot]? = some (plan.used.getD slot {}) := by
      rw [List.getD_eq_getElem?_getD, List.getElem?_eq_getElem inside, Option.getD_some]
    have record := @slice_flatMap 128 Entry entryBytes plan.used
      (zeros (arraySectors plan.entry_count * 512 - plan.entry_count * 128)) _ slot
      (fun entry _ => entryBytes_length entry) found
    refine readGptEntry_eq record announces.entry_size last_lt fun present => ?_
    have entry_sound := sound.entries _ (List.mem_of_getElem? found) present
    obtain ⟨type, -, -⟩ := entry_sound.gpt kind
    rw [announces.first_usable, announces.last_usable]
    exact ⟨type, entry_sound.sized, entry_sound.first, entry_sound.last⟩
  have whole : (List.range plan.used.length).map (fun slot => (plan.used.getD slot {}).gptImage) =
      plan.used.map Entry.gptImage := by
    conv_rhs => rw [← map_range_getD plan.used {}, List.map_map]
    rfl
  unfold readEntries
  rw [refuse_bind_eq_ok]
  refine ⟨intact, ?_⟩
  rw [mapM_ok slots, announces.entry_count, ← used_length sound.capacity, whole]

theorem fields_announces {current other entries : Nat} :
    Announces (plan.fields current other entries plan.checksum) plan :=
  ⟨rfl, rfl, rfl, rfl, rfl, rfl⟩

theorem entry_size_supported :
    minimum_entry_size ≤ 128 ∧ 128 ≤ maximum_entry_size ∧ 128 % minimum_entry_size = 0 := by decide

theorem header_parsed {current other entries : Nat} (sound : plan.Sound) (kind : plan.kind = .gpt)
    (current_lt : current < plan.sectors) (other_lt : other < plan.sectors)
    (apart : other ≠ current)
    (entries_le : entries + arraySectors plan.entry_count ≤ plan.sectors)
    (placed : Placed (plan.fields current other entries plan.checksum) current plan.sectors) :
    parseHeader (plan.header current other entries plan.checksum) current plan.sectors =
      .ok (plan.fields current other entries plan.checksum) := by
  obtain ⟨-, some_entries, -⟩ := sound.kind.gpt kind
  have array_pos := arraySectors_pos some_entries
  have sectors := sound.sectors
  have usable := sound.usable
  have capacity : plan.entry_count ≤ 128 := sound.capacity
  have decoded : Header.decode (plan.header current other entries plan.checksum) =
      plan.fields current other entries plan.checksum :=
    header_decode (by omega) (by omega) (by omega) (crc_lt _) (by omega) (by omega) (by omega)
  refine parseHeader_eq_ok.mpr ⟨decoded.symm, header_framed, ?_⟩
  refine ⟨sectors.1, rfl, ⟨other_lt, apart⟩, usable.2, ⟨some_entries, ?_⟩,
    entry_size_supported, ?_, placed⟩
  · exact capacity.trans (by decide)
  · rw [fields_announces.sectors]
    exact ⟨array_pos, entries_le⟩

theorem primaryHeader_parsed (sound : plan.Sound) (kind : plan.kind = .gpt) :
    parseHeader plan.primaryHeader 1 plan.sectors =
      .ok (plan.fields 1 (plan.sectors - 1) plan.primary_array plan.checksum) := by
  obtain ⟨-, -, after_header, before_usable, -, -⟩ := sound.kind.gpt kind
  have sectors := sound.sectors.1
  have usable := sound.usable
  refine header_parsed sound kind (by omega) (by omega) (by omega) (by omega) ?_
  exact ⟨fun _ => ⟨rfl, after_header, by rwa [fields_announces.sectors]⟩, fun other =>
    absurd rfl other⟩

theorem backupHeader_parsed (sound : plan.Sound) (kind : plan.kind = .gpt) :
    parseHeader plan.backupHeader (plan.sectors - 1) plan.sectors =
      .ok (plan.fields (plan.sectors - 1) 1 plan.backup_array plan.checksum) := by
  obtain ⟨-, -, -, -, behind_usable, before_header⟩ := sound.kind.gpt kind
  have sectors := sound.sectors.1
  have usable := sound.usable
  refine header_parsed sound kind (by omega) (by omega) (by omega) (by omega) ?_
  exact ⟨fun first => absurd first (by omega), fun _ => ⟨rfl, rfl, behind_usable, by
    rwa [fields_announces.sectors]⟩⟩

theorem readHeaders_eq (sound : plan.Sound) (kind : plan.kind = .gpt) :
    readHeaders plan.primaryHeader plan.backupHeader plan.sectors =
      .ok (plan.fields 1 (plan.sectors - 1) plan.primary_array plan.checksum,
        plan.fields (plan.sectors - 1) 1 plan.backup_array plan.checksum) := by
  obtain ⟨-, some_entries, -⟩ := sound.kind.gpt kind
  have size : readLe 4 plan.primaryHeader 12 = 92 ∧ readLe 4 plan.backupHeader 12 = 92 :=
    ⟨header_size_eq, header_size_eq⟩
  unfold readHeaders
  rw [primaryHeader_parsed sound kind, ok_bind, backupHeader_parsed sound kind, ok_bind,
    refuse_bind_eq_ok, refuse_bind_eq_ok]
  refine ⟨?_, by simp [Plan.fields], rfl⟩
  have capacity := sound.capacity
  simp only [size, Plan.fields]
  omega

end Arrays

section BootRecord

variable {Digest : Type} {plan : Plan Digest} {entry : Entry} {slot : Nat} {mbr bytes : Bytes}

/-- The address by heads and sectors that a slot keeps. -/
def chsBytes (original : Bytes) (place : Nat) : Bytes :=
  if allZero original then [0xfe, 0xff, 0xff] else slice original place 3

theorem chsBytes_length {original : Bytes} {place : Nat} (inside : place + 3 ≤ original.length) :
    (chsBytes original place).length = 3 := by
  unfold chsBytes
  split
  · rfl
  · exact slice_length inside

theorem mbrSlotBytes_present (present : entry.present = true) :
    ∃ front : Bytes, front.length = 8 ∧ front[0]? = some (if entry.active then 0x80 else 0) ∧
      front[4]? = some entry.mbr_type ∧
        mbrSlotBytes entry = front ++ (leBytes 4 entry.first ++ leBytes 4 entry.count) := by
  have start : (chsBytes entry.mbr_original.toList 1).length = 3 :=
    chsBytes_length (by rw [Vector.length_toList]; decide)
  have stop : (chsBytes entry.mbr_original.toList 5).length = 3 :=
    chsBytes_length (by rw [Vector.length_toList]; decide)
  refine ⟨[if entry.active then 0x80 else 0] ++ (chsBytes entry.mbr_original.toList 1 ++
    ([entry.mbr_type] ++ chsBytes entry.mbr_original.toList 5)), ?_, rfl, ?_, ?_⟩
  · simp [start, stop]
  · rw [List.getElem?_append_right (by simp), List.getElem?_append_right (by simp [start])]
    simp [start]
  · simp only [List.append_assoc]
    exact if_pos present

@[simp] theorem mbrSlotBytes_length (entry : Entry) : (mbrSlotBytes entry).length = 16 := by
  by_cases present : entry.present = true
  · obtain ⟨front, front_size, -, -, bytes_eq⟩ := mbrSlotBytes_present present
    rw [bytes_eq]
    simp [front_size]
  · rw [mbrSlotBytes, if_neg present, zeros_length]

/-- The slots of a committed boot record. -/
def Plan.slots (plan : Plan Digest) : List Bytes :=
  if plan.kind = .mbr then (plan.entries.toList.take 4).map mbrSlotBytes
  else [protectiveSlot plan.sectors, zeros 16, zeros 16, zeros 16]

theorem slotBytes_eq : plan.slotBytes = plan.slots.flatMap id := by
  unfold Plan.slotBytes Plan.slots
  split
  · rw [List.flatMap_map]
    rfl
  · rfl

theorem slots_sized : ∀ bytes ∈ plan.slots, (id bytes).length = 16 := by
  intro bytes member
  unfold Plan.slots at member
  split at member
  · obtain ⟨entry, -, rfl⟩ := List.mem_map.mp member
    exact mbrSlotBytes_length entry
  · simp only [List.mem_cons, List.not_mem_nil, or_false] at member
    rcases member with rfl | rfl | rfl | rfl
    · simp [protectiveSlot]
    · rfl
    · rfl
    · rfl

theorem slots_length : plan.slots.length = 4 := by
  unfold Plan.slots
  split
  · rw [List.length_map, List.length_take, Vector.length_toList]
    rfl
  · rfl

theorem slotBytes_length : plan.slotBytes.length = 64 := by
  rw [slotBytes_eq, flatMap_length slots_sized, slots_length]

theorem mbrPrefix_length :
    (put plan.mbr_prefix.toList 440 (leBytes 4 plan.disk_id.toNat)).length = 446 :=
  put_sized (Vector.length_toList) (by rw [leBytes_length]; decide)

theorem mbrBytes_length : plan.mbrBytes.length = 512 := by
  rw [Plan.mbrBytes, List.length_append, List.length_append, mbrPrefix_length, slotBytes_length]
  rfl

theorem mbrSlot_eq (found : plan.slots[slot]? = some bytes) :
    mbrSlot plan.mbrBytes slot = bytes := by
  have record := @slice_flatMap 16 Bytes id plan.slots [0x55, 0xaa] bytes slot slots_sized found
  rw [mbrSlot, Plan.mbrBytes, slice_append_right (by rw [mbrPrefix_length]; omega),
    mbrPrefix_length, Nat.add_sub_cancel_left, slotBytes_eq, record]
  rfl

theorem mbrBytes_signed : signed plan.mbrBytes = true := by
  have front : (put plan.mbr_prefix.toList 440 (leBytes 4 plan.disk_id.toNat) ++
      plan.slotBytes).length = 510 := by
    rw [List.length_append, mbrPrefix_length, slotBytes_length]
  have tail (index : Nat) : byteAt plan.mbrBytes (510 + index) = byteAt [0x55, 0xaa] index := by
    rw [byteAt, byteAt, List.getD_eq_getElem?_getD, List.getD_eq_getElem?_getD, Plan.mbrBytes,
      ← List.append_assoc, List.getElem?_append_right (by omega), front, Nat.add_sub_cancel_left]
  rw [signed, Bool.and_eq_true]
  exact ⟨decide_eq_true (tail 0), decide_eq_true (tail 1)⟩

theorem mbrBytes_disk_id : readLe 4 plan.mbrBytes 440 = plan.disk_id.toNat := by
  refine readLe_eq ?_ plan.disk_id.toNat_lt
  rw [Plan.mbrBytes, slice_append_front (by rw [mbrPrefix_length]; decide)]
  have found := @slice_put plan.mbr_prefix.toList (leBytes 4 plan.disk_id.toNat) 440
    (by rw [leBytes_length, Vector.length_toList]; decide)
  rwa [leBytes_length] at found

theorem countSlots_unused {sectors : Nat} {slots : List Nat} {counts : Nat × Nat}
    (unused : byteAt (mbrSlot mbr slot) 4 = 0) (rest : countSlots mbr sectors slots = .ok counts) :
    countSlots mbr sectors (slot :: slots) = .ok counts := by
  rw [countSlots, refuse_bind_eq_ok, rest, ok_bind, unused]
  exact ⟨by simp, rfl⟩

theorem countSlots_free {sectors : Nat} {slots : List Nat}
    (free : ∀ slot ∈ slots, byteAt (mbrSlot mbr slot) 4 ≠ 0xee) :
    ∃ used, countSlots mbr sectors slots = .ok (used, 0) := by
  induction slots with
  | nil => exact ⟨0, rfl⟩
  | cons slot slots induction =>
    obtain ⟨first, others⟩ := List.forall_mem_cons.mp free
    obtain ⟨used, rest⟩ := induction others
    refine ⟨used + if byteAt (mbrSlot mbr slot) 4 ≠ 0 then 1 else 0, ?_⟩
    rw [countSlots, refuse_bind_eq_ok, rest, ok_bind, if_neg first]
    exact ⟨fun refused => first refused.1, rfl⟩

theorem countSlots_protective (kind : plan.kind ≠ .mbr) :
    countSlots plan.mbrBytes plan.sectors (List.range 4) = .ok (1, 1) := by
  have slots : plan.slots = [protectiveSlot plan.sectors, zeros 16, zeros 16, zeros 16] :=
    if_neg kind
  have unused {slot : Nat} (found : plan.slots[slot]? = some (zeros 16)) :
      byteAt (mbrSlot plan.mbrBytes slot) 4 = 0 := by
    rw [mbrSlot_eq found]
    rfl
  have empty : countSlots plan.mbrBytes plan.sectors [1, 2, 3] = .ok (0, 0) := by
    refine countSlots_unused (unused (by rw [slots]; rfl)) ?_
    refine countSlots_unused (unused (by rw [slots]; rfl)) ?_
    exact countSlots_unused (unused (by rw [slots]; rfl)) rfl
  have first : mbrSlot plan.mbrBytes 0 = protectiveSlot plan.sectors := mbrSlot_eq (by rw [slots]; rfl)
  have type : byteAt (protectiveSlot plan.sectors) 4 = 0xee := rfl
  have start : readLe 4 (protectiveSlot plan.sectors) 8 = 1 := by
    refine readLe_eq ?_ (by decide)
    rw [protectiveSlot, slice_append_right (by decide)]
    exact slice_append_left (leBytes_length _ _)
  have size : readLe 4 (protectiveSlot plan.sectors) 12 = min (plan.sectors - 1) (2 ^ 32 - 1) := by
    refine readLe_eq ?_ (by omega)
    rw [protectiveSlot, slice_append_right (by decide), slice_append_right (by decide)]
    exact slice_all (leBytes 4 _)
  change countSlots plan.mbrBytes plan.sectors [0, 1, 2, 3] = .ok (1, 1)
  rw [countSlots, refuse_bind_eq_ok, empty, ok_bind, first, type, start, size]
  exact ⟨by simp, rfl⟩

/-- What the boot record keeps of a partition. -/
def Entry.mbrImage (entry : Entry) : Entry :=
  if entry.present then {
    present := true
    first := entry.first
    count := entry.count
    mbr_type := entry.mbr_type
    active := entry.active
    mbr_original := fixed 16 (mbrSlotBytes entry) 0 }
  else {}

theorem mbrSlotBytes_type (present : entry.present = true) :
    byteAt (mbrSlotBytes entry) 4 = entry.mbr_type := by
  obtain ⟨front, front_size, -, type_found, bytes_eq⟩ := mbrSlotBytes_present present
  rw [byteAt, List.getD_eq_getElem?_getD, bytes_eq, List.getElem?_append_left (by omega), type_found,
    Option.getD_some]

theorem readMbrEntry_eq (found : mbrSlot mbr slot = mbrSlotBytes entry)
    (fits : entry.present = true → entry.mbr_type ≠ 0 ∧ extended entry.mbr_type = false ∧
      entry.first < 2 ^ 32 ∧ entry.count < 2 ^ 32) :
    readMbrEntry mbr slot = .ok entry.mbrImage := by
  unfold readMbrEntry Entry.mbrImage
  dsimp only
  rw [found]
  by_cases present : entry.present = true
  · obtain ⟨type, primary, first_lt, count_lt⟩ := fits present
    obtain ⟨front, front_size, flag, type_found, bytes_eq⟩ := mbrSlotBytes_present present
    have within {place : Nat} {byte : UInt8} (found : front[place]? = some byte) :
        byteAt (mbrSlotBytes entry) place = byte := by
      obtain ⟨inside, -⟩ := List.getElem?_eq_some_iff.mp found
      rw [byteAt, List.getD_eq_getElem?_getD, bytes_eq, List.getElem?_append_left inside, found,
        Option.getD_some]
    have first_eq : readLe 4 (mbrSlotBytes entry) 8 = entry.first := by
      refine readLe_eq ?_ first_lt
      rw [bytes_eq, slice_append_right front_size.le, front_size,
        slice_append_left (leBytes_length _ _)]
    have count_eq : readLe 4 (mbrSlotBytes entry) 12 = entry.count := by
      refine readLe_eq ?_ count_lt
      rw [bytes_eq, slice_append_right (by omega), front_size,
        slice_append_right (by rw [leBytes_length]), leBytes_length]
      exact slice_all (leBytes 4 _)
    rw [within type_found, if_neg type, if_pos present, refuse_bind_eq_ok, refuse_bind_eq_ok,
      first_eq, count_eq, within flag]
    refine ⟨by cases entry.active <;> decide, Bool.eq_false_iff.mp primary, ?_⟩
    cases entry.active <;> rfl
  · have bytes_eq : mbrSlotBytes entry = zeros 16 := if_neg present
    have free : byteAt (zeros 16) 4 = 0 := rfl
    rw [bytes_eq, if_pos free, if_neg present, refuse_bind_eq_ok]
    exact ⟨by decide, rfl⟩

/-- A slot of a committed boot record belongs to a partition of the plan. -/
theorem mbrSlot_used (kind : plan.kind = .mbr) (sound : plan.Sound) (inside : slot ∈ List.range 4) :
    plan.used.getD slot {} ∈ plan.used ∧
      mbrSlot plan.mbrBytes slot = mbrSlotBytes (plan.used.getD slot {}) := by
  have four := sound.kind.mbr kind
  have used : plan.used = plan.entries.toList.take 4 := by rw [Plan.used, four]
  have slots : plan.slots = plan.used.map mbrSlotBytes := by rw [used, Plan.slots, if_pos kind]
  have bound : slot < plan.used.length := by
    rw [used_length sound.capacity, four]
    exact List.mem_range.mp inside
  have found : plan.used[slot]? = some (plan.used.getD slot {}) := by
    rw [List.getD_eq_getElem?_getD, List.getElem?_eq_getElem bound, Option.getD_some]
  refine ⟨List.mem_of_getElem? found, mbrSlot_eq ?_⟩
  rw [slots, List.getElem?_map, found, Option.map_some]

/-- A boot record of partitions has no protective slot. -/
theorem mbrSlot_free (kind : plan.kind = .mbr) (sound : plan.Sound) (inside : slot ∈ List.range 4) :
    byteAt (mbrSlot plan.mbrBytes slot) 4 ≠ 0xee := by
  obtain ⟨member, bytes⟩ := mbrSlot_used kind sound inside
  rw [bytes]
  by_cases present : (plan.used.getD slot {}).present = true
  · rw [mbrSlotBytes_type present]
    exact ((sound.entries _ member present).mbr kind).2.1
  · rw [mbrSlotBytes, if_neg present]
    decide

theorem readMbrEntries_eq (kind : plan.kind = .mbr) (sound : plan.Sound) :
    (List.range 4).mapM (readMbrEntry plan.mbrBytes) = .ok (plan.used.map Entry.mbrImage) := by
  have steps : ∀ slot ∈ List.range 4,
      readMbrEntry plan.mbrBytes slot = .ok (plan.used.getD slot {}).mbrImage := by
    intro slot inside
    obtain ⟨member, bytes⟩ := mbrSlot_used kind sound inside
    refine readMbrEntry_eq bytes fun present => ?_
    obtain ⟨type, -, primary, first_lt, count_lt, -⟩ := (sound.entries _ member present).mbr kind
    exact ⟨type, primary, first_lt, count_lt⟩
  have length : plan.used.length = 4 := by rw [used_length sound.capacity, sound.kind.mbr kind]
  have whole : (List.range plan.used.length).map (fun slot => (plan.used.getD slot {}).mbrImage) =
      plan.used.map Entry.mbrImage := by
    conv_rhs => rw [← map_range_getD plan.used {}, List.map_map]
    rfl
  rw [mapM_ok steps, ← length, whole]

end BootRecord

end R4OS.Gpt
