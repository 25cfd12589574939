import R4OS.Gpt.CommitRules

/-!
# Committed plans are read back

After a commit has returned, reading a plan finds the partition table that was committed.
-/

namespace R4OS.Gpt

open Block Crash Text

/-- Entries that agree about a partition of a GUID table. -/
structure Entry.SameGpt (entry other : Entry) : Prop where
  present : other.present = entry.present
  range : entry.present = true → other.first = entry.first ∧ other.count = entry.count
  guids : entry.present = true →
    other.type_guid = entry.type_guid ∧ other.unique_guid = entry.unique_guid
  attributes : entry.present = true → other.attributes = entry.attributes
  name : entry.present = true → other.name = entry.name

/-- Entries that agree about a partition of the boot record. -/
structure Entry.SameMbr (entry other : Entry) : Prop where
  present : other.present = entry.present
  range : entry.present = true → other.first = entry.first ∧ other.count = entry.count
  mbr_type : entry.present = true → other.mbr_type = entry.mbr_type
  active : entry.present = true → other.active = entry.active

/-- Plans that hold one GUID table. -/
structure Plan.SameGptTable {Digest : Type} (plan other : Plan Digest) : Prop where
  disk_guid : other.disk_guid = plan.disk_guid
  usable : other.first_usable = plan.first_usable ∧ other.last_usable = plan.last_usable
  entry_count : other.entry_count = plan.entry_count
  entries : List.Forall₂ Entry.SameGpt plan.used other.used

/-- Plans that hold one table of the boot record. -/
structure Plan.SameMbrTable {Digest : Type} (plan other : Plan Digest) : Prop where
  disk_id : other.disk_id = plan.disk_id
  entry_count : other.entry_count = plan.entry_count
  entries : List.Forall₂ Entry.SameMbr plan.used other.used

/-- Plans that hold one partition table. -/
structure Plan.SameTable {Digest : Type} (plan other : Plan Digest) : Prop where
  kind : other.kind = plan.kind
  gpt : plan.kind = .gpt → plan.SameGptTable other
  mbr : plan.kind = .mbr → plan.SameMbrTable other

/-- The table does not depend on where it was read from. -/
theorem Plan.SameTable.with_source {Digest : Type} {plan other : Plan Digest}
    (same : plan.SameTable other) (source : Source Digest) :
    plan.SameTable { other with source } where
  kind := same.kind
  gpt kind :=
    have table := same.gpt kind
    ⟨table.disk_guid, table.usable, table.entry_count, table.entries⟩
  mbr kind :=
    have table := same.mbr kind
    ⟨table.disk_id, table.entry_count, table.entries⟩

theorem Entry.sameGpt_image (entry : Entry) : entry.SameGpt entry.gptImage := by
  by_cases present : entry.present = true
  · have image : entry.gptImage = _ := if_pos present
    rw [image]
    exact ⟨present.symm, fun _ => ⟨rfl, rfl⟩, fun _ => ⟨rfl, rfl⟩, fun _ => rfl, fun _ => rfl⟩
  · have image : entry.gptImage = {} := if_neg present
    rw [image]
    exact ⟨(Bool.eq_false_iff.mpr present).symm, fun found => absurd found present,
      fun found => absurd found present, fun found => absurd found present,
      fun found => absurd found present⟩

theorem Entry.sameMbr_image (entry : Entry) : entry.SameMbr entry.mbrImage := by
  by_cases present : entry.present = true
  · have image : entry.mbrImage = _ := if_pos present
    rw [image]
    exact ⟨present.symm, fun _ => ⟨rfl, rfl⟩, fun _ => rfl, fun _ => rfl⟩
  · have image : entry.mbrImage = {} := if_neg present
    rw [image]
    exact ⟨(Bool.eq_false_iff.mpr present).symm, fun found => absurd found present,
      fun found => absurd found present, fun found => absurd found present⟩

theorem forall₂_image {Item : Type} {relation : Item → Item → Prop} {image : Item → Item}
    (related : ∀ item, relation item (image item)) (items : List Item) :
    List.Forall₂ relation items (items.map image) := by
  rw [List.forall₂_map_right_iff]
  exact List.forall₂_same.mpr fun item _ => related item

section Sound

variable {Digest : Type} {plan other : Plan Digest} {image : Entry → Entry}

theorem entrySlots_take {entries : List Entry} (capacity : entries.length ≤ max_entries) :
    (entrySlots entries).toList.take entries.length = entries := by
  apply List.ext_getElem
  · rw [List.length_take, Vector.length_toList, Nat.min_eq_left capacity]
  · intro index _ bound
    simp [entrySlots, List.getElem?_eq_getElem bound]

/-- What an image of an entry must keep for the check to accept it again. -/
structure Keepsake (plan : Plan Digest) (entry image : Entry) : Prop where
  present : image.present = true → entry.present = true
  range : entry.present = true → image.first = entry.first ∧ image.count = entry.count
  mbr : plan.kind = .mbr → entry.present = true → image.mbr_type = entry.mbr_type
  gpt : plan.kind = .gpt → entry.present = true →
    image.type_guid = entry.type_guid ∧ image.unique_guid = entry.unique_guid

/-- The table that was read back passes the check. -/
theorem Sound.reread (image : Entry → Entry) (sound : plan.Sound) (some_kind : plan.kind ≠ .none)
    (kept : ∀ entry, Keepsake plan entry (image entry)) (used : other.used = plan.used.map image)
    (kind : other.kind = plan.kind) (sectors : other.sectors = plan.sectors)
    (guid : plan.kind = .gpt → other.disk_guid = plan.disk_guid)
    (usable : 0 < other.first_usable ∧ other.first_usable ≤ plan.first_usable ∧
      plan.last_usable ≤ other.last_usable ∧ other.last_usable < other.sectors)
    (capacity : other.entry_count ≤ max_entries) (kind_sound : other.KindSound) : other.Sound := by
  have range := sound.usable
  refine ⟨sectors ▸ sound.sectors, ⟨usable.1, by omega, usable.2.2.2⟩, capacity, kind_sound, ?_, ?_⟩
  · intro found member found_present
    rw [used] at member
    obtain ⟨entry, entry_member, rfl⟩ := List.mem_map.mp member
    have present := (kept entry).present found_present
    obtain ⟨sized, first, last, -, mbr, gpt⟩ := sound.entries entry entry_member present
    obtain ⟨first_eq, count_eq⟩ := (kept entry).range present
    refine ⟨by omega, by omega, by omega, kind ▸ some_kind, fun is_mbr => ?_, fun is_gpt => ?_⟩
    · rw [kind] at is_mbr
      rw [(kept entry).mbr is_mbr present, first_eq, count_eq]
      exact mbr is_mbr
    · rw [kind] at is_gpt
      obtain ⟨type_eq, unique_eq⟩ := (kept entry).gpt is_gpt present
      rw [type_eq, unique_eq, guid is_gpt]
      exact gpt is_gpt
  · rw [used, List.pairwise_map]
    refine sound.pairs.imp fun {first second} pair first_present second_present => ?_
    have first_was := (kept first).present first_present
    have second_was := (kept second).present second_present
    obtain ⟨apart, distinct⟩ := pair first_was second_was
    obtain ⟨first_eq, first_count⟩ := (kept first).range first_was
    obtain ⟨second_eq, second_count⟩ := (kept second).range second_was
    refine ⟨by omega, fun is_gpt => ?_⟩
    rw [kind] at is_gpt
    rw [((kept first).gpt is_gpt first_was).2, ((kept second).gpt is_gpt second_was).2]
    exact distinct is_gpt

theorem Entry.gptImage_kept (is_gpt : plan.kind = .gpt) (entry : Entry) :
    Keepsake plan entry entry.gptImage := by
  have same := entry.sameGpt_image
  refine ⟨fun present => same.present ▸ present, same.range, fun is_mbr => ?_, fun _ => same.guids⟩
  exact absurd (is_gpt.symm.trans is_mbr) (by decide)

theorem Entry.mbrImage_kept (is_mbr : plan.kind = .mbr) (entry : Entry) :
    Keepsake plan entry entry.mbrImage := by
  have same := entry.sameMbr_image
  refine ⟨fun present => same.present ▸ present, same.range, fun _ => same.mbr_type, fun is_gpt => ?_⟩
  exact absurd (is_mbr.symm.trans is_gpt) (by decide)

end Sound

section Reading

variable {Digest : Type} {plan : Plan Digest} {device : BlockDevice} {scratch : Nat}
  {world : BlockWorld}

/-- A disk on which a GUID table was committed. -/
structure Published (plan : Plan Digest) (disk : Disk) : Prop where
  mbr : disk.read 0 1 = plan.mbrBytes
  primary_header : disk.read 1 1 = plan.primaryHeader
  backup_header : disk.read (plan.sectors - 1) 1 = plan.backupHeader
  primary_array : disk.read plan.primary_array (arraySectors plan.entry_count) = plan.arrayBytes
  backup_array : disk.read plan.backup_array (arraySectors plan.entry_count) = plan.arrayBytes

/-- A plan that was read back from a GUID table. -/
def Plan.gptReread (start plan : Plan Digest) : Plan Digest :=
  { start with
    kind := .gpt
    disk_guid := plan.disk_guid
    first_usable := plan.first_usable
    last_usable := plan.last_usable
    entry_count := plan.entry_count
    primary_array := plan.primary_array
    backup_array := plan.backup_array
    entries := entrySlots (plan.used.map Entry.gptImage)
    source := { start.source with
      spans := start.source.spans ++ [⟨plan.primary_array, arraySectors plan.entry_count⟩,
        ⟨plan.backup_array, arraySectors plan.entry_count⟩] } }

variable {start : Plan Digest}

theorem readGpt_returns (committable : Committable plan device) (kind : plan.kind = .gpt)
    (published : Published plan world.disk) (sectors : start.sectors = plan.sectors) :
    Returns (start.readGpt device plan.primaryHeader plan.backupHeader) world
      (.ok (start.gptReread plan, plan.arrayBytes ++ plan.arrayBytes)) world := by
  have sound := committable.sound
  obtain ⟨-, some_entries, after_header, before_usable, behind_usable, before_header⟩ :=
    sound.kind.gpt kind
  have usable := sound.usable
  have array_pos := arraySectors_pos some_entries
  have announces : Announces (plan.fields 1 (plan.sectors - 1) plan.primary_array plan.checksum) plan :=
    fields_announces
  have first : Returns (device.read plan.primary_array (arraySectors plan.entry_count)) world
      (.ok plan.arrayBytes) world := by
    rw [← published.primary_array]
    exact BlockDevice.read_returns committable.valid array_pos (by rw [committable.sectors]; omega) world
  have second : Returns (device.read plan.backup_array (arraySectors plan.entry_count)) world
      (.ok plan.arrayBytes) world := by
    rw [← published.backup_array]
    exact BlockDevice.read_returns committable.valid array_pos (by rw [committable.sectors]; omega) world
  have counted := announces.sectors
  have headers : readHeaders plan.primaryHeader plan.backupHeader start.sectors =
      .ok (plan.fields 1 (plan.sectors - 1) plan.primary_array plan.checksum,
        plan.fields (plan.sectors - 1) 1 plan.backup_array plan.checksum) := by
    rw [sectors]
    exact readHeaders_eq sound kind
  refine .bind (.computed headers world) ?_
  dsimp only
  rw [counted]
  refine .bind first (.bind second ?_)
  refine .bind (.computed (readEntries_eq announces kind sound) world) ?_
  exact .pure _ world

/-- A plan that was read back from the boot record. -/
def Plan.mbrReread (start plan : Plan Digest) : Plan Digest :=
  { start with kind := .mbr, entry_count := 4, entries := entrySlots (plan.used.map Entry.mbrImage) }

theorem readMbr_eq (kind : plan.kind = .mbr) (sound : plan.Sound) :
    start.readMbr plan.mbrBytes = .ok (start.mbrReread plan) := by
  unfold Plan.readMbr
  rw [readMbrEntries_eq kind sound]
  rfl

theorem readTable_gpt (committable : Committable plan device) (kind : plan.kind = .gpt)
    (published : Published plan world.disk) (sectors : start.sectors = plan.sectors) :
    Returns (start.readTable device plan.mbrBytes plan.primaryHeader plan.backupHeader) world
      (.ok (start.gptReread plan, plan.arrayBytes ++ plan.arrayBytes)) world := by
  have counts : countSlots plan.mbrBytes start.sectors (List.range 4) = .ok (1, 1) := by
    rw [sectors]
    exact countSlots_protective (by simp [kind])
  unfold Plan.readTable
  rw [if_pos mbrBytes_signed]
  exact .bind (.computed counts world)
    (readGpt_returns committable kind published sectors)

theorem readTable_mbr {primary_sector backup_sector : Bytes} (kind : plan.kind = .mbr)
    (sound : plan.Sound) :
    Returns (start.readTable device plan.mbrBytes primary_sector backup_sector) world
      (.ok (start.mbrReread plan, [])) world := by
  obtain ⟨used, counts⟩ := @countSlots_free plan.mbrBytes start.sectors (List.range 4)
    fun slot inside => mbrSlot_free kind sound inside
  unfold Plan.readTable
  rw [if_pos mbrBytes_signed]
  refine .bind (.computed counts world) ?_
  exact .bind (.computed (readMbr_eq kind sound) world) (.pure _ world)

theorem used_images (other : Plan Digest) {image : Entry → Entry} (sound : plan.Sound)
    (entries : other.entries = entrySlots (plan.used.map image))
    (count : other.entry_count = plan.entry_count) : other.used = plan.used.map image := by
  have length : (plan.used.map image).length = plan.entry_count := by
    rw [List.length_map, used_length sound.capacity]
  rw [Plan.used, entries, count, ← length]
  exact entrySlots_take (by rw [length]; exact sound.capacity)

theorem gptReread_sound (kind : plan.kind = .gpt) (sound : plan.Sound)
    (sectors : start.sectors = plan.sectors) : (start.gptReread plan).Sound := by
  have usable := sound.usable
  refine Sound.reread Entry.gptImage sound (by simp [kind])
    (Entry.gptImage_kept kind) (used_images _ sound rfl rfl) kind.symm sectors (fun _ => rfl) ?_
    sound.capacity ⟨nofun, nofun, fun _ => ?_⟩
  · exact ⟨usable.1, le_rfl, le_rfl, by rw [Plan.gptReread, sectors]; exact usable.2.2⟩
  · have kind_sound := sound.kind.gpt kind
    rw [Plan.gptReread, sectors]
    exact kind_sound

theorem mbrReread_sound {mbr : Bytes} (kind : plan.kind = .mbr) (sound : plan.Sound)
    (sectors : device.sectors = plan.sectors) :
    ((Plan.start device.sectors mbr).mbrReread plan).Sound := by
  have usable := sound.usable
  have four := sound.kind.mbr kind
  refine Sound.reread Entry.mbrImage sound (by simp [kind])
    (Entry.mbrImage_kept kind) (used_images _ sound rfl four.symm) kind.symm sectors ?_ ?_
    (by decide : 4 ≤ max_entries) ⟨nofun, fun _ => rfl, nofun⟩
  · intro is_gpt
    exact absurd (kind.symm.trans is_gpt) (by decide)
  · simp only [Plan.mbrReread, Plan.start]
    omega

theorem gptReread_table (start : Plan Digest) (kind : plan.kind = .gpt) (sound : plan.Sound) :
    plan.SameTable (start.gptReread plan) where
  kind := kind.symm
  gpt _ := {
    disk_guid := rfl
    usable := ⟨rfl, rfl⟩
    entry_count := rfl
    entries := by
      rw [used_images (start.gptReread plan) sound rfl rfl]
      exact forall₂_image Entry.sameGpt_image plan.used }
  mbr is_mbr := absurd (kind.symm.trans is_mbr) (by decide)

theorem mbrReread_table (sectors : Nat) (kind : plan.kind = .mbr) (sound : plan.Sound) :
    plan.SameTable ((Plan.start sectors plan.mbrBytes).mbrReread plan) where
  kind := kind.symm
  gpt is_gpt := absurd (kind.symm.trans is_gpt) (by decide)
  mbr _ := {
    disk_id := by
      change UInt32.ofNat (readLe 4 plan.mbrBytes 440) = plan.disk_id
      rw [mbrBytes_disk_id, UInt32.ofNat_toNat]
    entry_count := (sound.kind.mbr kind).symm
    entries := by
      have four := sound.kind.mbr kind
      rw [used_images ((Plan.start sectors plan.mbrBytes).mbrReread plan) sound rfl four.symm]
      exact forall₂_image Entry.sameMbr_image plan.used }

/-- The sectors that a commit of a GUID table leaves behind. -/
theorem writes_published (kind : plan.kind = .gpt) (sound : plan.Sound) :
    Published plan (wroteAll world plan.writes).disk := by
  obtain ⟨-, some_entries, after_header, before_usable, behind_usable, before_header⟩ :=
    sound.kind.gpt kind
  have usable := sound.usable
  have array_pos := arraySectors_pos some_entries
  have array := arrayBytes_length sound.capacity
  have primary : plan.primaryHeader.length = sector_size * 1 := header_length
  have backup : plan.backupHeader.length = sector_size * 1 := header_length
  have mbr : plan.mbrBytes.length = sector_size * 1 := mbrBytes_length
  simp only [Plan.writes, wroteAll, wrote, List.foldl_cons, List.foldl_nil]
  constructor
  · exact Disk.write_read _ _ mbr
  · rw [Disk.write_read_other mbr (by omega)]
    exact Disk.write_read _ _ primary
  · rw [Disk.write_read_other mbr (by omega), Disk.write_read_other primary (by omega),
      Disk.write_read_other array (by omega)]
    exact Disk.write_read _ _ backup
  · rw [Disk.write_read_other mbr (by omega), Disk.write_read_other primary (by omega)]
    exact Disk.write_read _ _ array
  · rw [Disk.write_read_other mbr (by omega), Disk.write_read_other primary (by omega),
      Disk.write_read_other array (by omega), Disk.write_read_other backup (by omega)]
    exact Disk.write_read _ _ array

variable [DecidableEq Digest] {sha256 : Bytes → Digest}

theorem Plan.read_returns {found : Plan Digest × Bytes} (valid : device.validate = .ok ())
    (large : 3 ≤ device.sectors) (room : max_array_bytes * 2 ≤ scratch)
    (aligned : scratch % sector_size = 0)
    (table : Returns ((Plan.start device.sectors (world.disk.read 0 1)).readTable device
      (world.disk.read 0 1) (world.disk.read 1 1) (world.disk.read (device.sectors - 1) 1)) world
      (.ok found) world)
    (sound : found.1.Sound)
    (inside : ∀ span ∈ found.1.source.spans, span.first + span.count ≤ device.sectors)
    (bytes : spanBytes world.disk found.1.source.spans = world.disk.read 0 1 ++
      (world.disk.read 1 1 ++ (world.disk.read (device.sectors - 1) 1 ++ found.2))) :
    Returns (Plan.read sha256 device scratch) world
      (.ok { found.1 with source := { found.1.source with
        digest := some (sha256 (spanBytes world.disk found.1.source.spans)) } }) world := by
  have space : sector_size ≤ scratch := le_trans (by decide) room
  rw [bytes]
  refine .bind (.computed valid world) ?_
  refine .bind (.require (by simp [large, room, aligned]) world) ?_
  refine .bind (BlockDevice.read_returns valid one_pos (by omega) world) ?_
  refine .bind (BlockDevice.read_returns valid one_pos (by omega) world) ?_
  refine .bind (BlockDevice.read_returns valid one_pos (by omega) world) ?_
  refine .bind table ?_
  refine .bind (.computed (Plan.validate_eq_ok.mpr sound) world) ?_
  refine .bind (Source.hash_returns valid space aligned inside world) ?_
  refine .bind (.require (by simp [bytes]) world) ?_
  exact .pure _ world

theorem Published.read_back (published : Published plan world.disk)
    (committable : Committable plan device) (kind : plan.kind = .gpt)
    (room : max_array_bytes * 2 ≤ scratch) (aligned : scratch % sector_size = 0) :
    ∃ found, Returns (Plan.read sha256 device scratch) world (.ok found) world ∧
      plan.SameTable found := by
  have sound := committable.sound
  have sectors := committable.sectors
  have kind_sound := sound.kind.gpt kind
  have usable := sound.usable
  have large := sound.sectors.1
  have table := @readTable_gpt _ plan device world (Plan.start device.sectors plan.mbrBytes) committable
    kind published sectors
  have same := gptReread_table (Plan.start device.sectors plan.mbrBytes) kind sound
  have backup := published.backup_header
  rw [← sectors] at backup
  rw [← published.mbr, ← published.primary_header, ← backup] at table
  refine ⟨_, Plan.read_returns committable.valid (by omega) room aligned table ?_ ?_ ?_, ?_⟩
  · exact gptReread_sound kind sound sectors
  · intro span member
    simp only [Plan.gptReread, Plan.start, List.mem_append, List.mem_cons, List.not_mem_nil,
      or_false] at member
    obtain (rfl | rfl | rfl) | rfl | rfl := member <;> dsimp only <;> omega
  · simp [Plan.gptReread, Plan.start, spanBytes, published.primary_array, published.backup_array]
  · rw [published.mbr]
    exact same.with_source _

theorem boot_read_back (boot : world.disk.read 0 1 = plan.mbrBytes)
    (committable : Committable plan device) (kind : plan.kind = .mbr)
    (room : max_array_bytes * 2 ≤ scratch) (aligned : scratch % sector_size = 0) :
    ∃ found, Returns (Plan.read sha256 device scratch) world (.ok found) world ∧
      plan.SameTable found := by
  have sound := committable.sound
  have large := sound.sectors.1
  have sectors := committable.sectors
  have table := @readTable_mbr _ plan device world (Plan.start device.sectors plan.mbrBytes)
    (world.disk.read 1 1) (world.disk.read (device.sectors - 1) 1) kind sound
  have same := mbrReread_table device.sectors kind sound
  rw [← boot] at table
  refine ⟨_, Plan.read_returns committable.valid (by omega) room aligned table ?_ ?_ ?_, ?_⟩
  · exact mbrReread_sound kind sound sectors
  · intro span member
    simp only [Plan.mbrReread, Plan.start, List.mem_cons, List.not_mem_nil, or_false] at member
    obtain rfl | rfl | rfl := member <;> dsimp only <;> omega
  · simp [Plan.mbrReread, Plan.start, spanBytes]
  · rw [boot]
    exact same.with_source _

/-- Whenever a commit returns, reading a plan finds the table that was committed. -/
theorem commit_read_back {tears : Disk → Nat → Bytes → Disk → Prop} {work : Nat} {after : BlockWorld}
    (committed : Execution (blockDevice tears) (plan.commit sha256 device work).run world
      (some (.ok ())) after)
    (room : max_array_bytes * 2 ≤ scratch) (aligned : scratch % sector_size = 0) :
    ∃ found, Returns (Plan.read sha256 device scratch) after (.ok found) after ∧
      plan.SameTable found := by
  obtain ⟨-, finished⟩ := Keeps.sound commit_keeps_boot committed
  obtain ⟨committable, before, disk_eq⟩ := finished () rfl
  cases kind : plan.kind with
  | none => exact absurd kind committable.kind
  | mbr =>
    have boot : after.disk.read 0 1 = plan.mbrBytes := by
      rw [disk_eq]
      exact Disk.write_read _ _ mbrBytes_length
    exact boot_read_back boot committable kind room aligned
  | gpt =>
    obtain ⟨-, written⟩ := Keeps.sound (commit_keeps_gpt kind) committed
    obtain ⟨-, after_eq⟩ := written () rfl
    have published : Published plan after.disk := by
      rw [after_eq]
      exact writes_published kind committable.sound
    exact published.read_back committable kind room aligned

end Reading

/-- A table of one partition. -/
def samplePlan : Plan Unit where
  sectors := 68
  kind := .gpt
  disk_guid := Vector.replicate 16 1
  first_usable := 3
  last_usable := 65
  entry_count := 1
  primary_array := 2
  backup_array := 66
  entries := (Vector.replicate max_entries ({} : Entry)).set 0 {
    present := true
    first := 8
    count := 16
    type_guid := microsoft_basic_data_guid
    unique_guid := Vector.replicate 16 2
    attributes := 1
    name := Vector.replicate 36 65 }
  source := { spans := [⟨0, 1⟩], digest := some () }

theorem samplePlan_committable : Committable samplePlan ⟨68, 512, true⟩ where
  sound := Plan.validate_eq_ok.mp (by decide)
  valid := by decide
  sectors := rfl
  kind := by decide

theorem samplePlan_committed (disk : Disk) :
    Returns (samplePlan.commit (fun _ => ()) ⟨68, 512, true⟩ 32768) ⟨disk, []⟩ (.ok ())
      (wroteAll ⟨disk, []⟩ samplePlan.writes) := by
  refine commit_returns samplePlan_committable rfl rfl rfl (by decide) ?_ rfl (by decide) (by decide)
  intro span member
  obtain rfl := List.mem_singleton.mp member
  decide

theorem commit_read_back_sample :
    ∃ found, Returns (Plan.read (fun _ => ()) ⟨68, 512, true⟩ 32768)
      (wroteAll ⟨fun _ => 0, []⟩ samplePlan.writes) (.ok found)
      (wroteAll ⟨fun _ => 0, []⟩ samplePlan.writes) ∧ samplePlan.SameTable found :=
  commit_read_back ((samplePlan_committed fun _ => 0).execution fun _ _ _ _ => False) (by decide)
    (by decide)

end R4OS.Gpt
