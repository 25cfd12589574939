import R4OS.Gpt.RoundTrip

/-!
# Committing a GUID table never loses it

Wherever a commit of an edited table stops, one of the two copies describes wholly the old or wholly
the new table, and no sector of the usable range was written.
-/

namespace R4OS.Gpt

open Block Crash Text

/-- A GUID table. -/
structure GptTable where
  disk_guid : Guid
  first_usable : Nat
  last_usable : Nat
  entries : List Entry

/-- The table that the copy with its header at a sector describes, if its checksums hold. -/
def tableAt (disk : Disk) (sectors lba : Nat) : Except Fault GptTable := do
  let header ← parseHeader (disk.read lba 1) lba sectors
  refuse (readLe 4 (disk.read lba 1) 12 ≠ 92 ∨ header.entry_size ≠ 128 ∨
    max_entries < header.entry_count) .GptLayoutUnsupported
  let array := disk.read header.entries_lba header.entrySectors
  refuse (crc (array.take header.entryBytes) ≠ header.entries_crc32) .GptArrayCrc
  let entries ← (List.range header.entry_count).mapM (readGptEntry header array)
  return {
    disk_guid := header.disk_guid
    first_usable := header.first_usable_lba
    last_usable := header.last_usable_lba
    entries }

def Plan.table {Digest : Type} (plan : Plan Digest) : GptTable where
  disk_guid := plan.disk_guid
  first_usable := plan.first_usable
  last_usable := plan.last_usable
  entries := plan.used.map Entry.gptImage

section Tables

variable {Digest : Type} {plan : Plan Digest} {disk left : Disk} {sectors lba : Nat} {header : Header}

theorem tableAt_congr (parsed : parseHeader (disk.read lba 1) lba sectors = .ok header)
    (sector : disk.SameOn left lba 1)
    (array : disk.SameOn left header.entries_lba header.entrySectors) :
    tableAt left sectors lba = tableAt disk sectors lba := by
  unfold tableAt
  rw [← sector.read_eq, parsed, ok_bind, ok_bind, array.read_eq]

theorem tableAt_committed (parsed : parseHeader (disk.read lba 1) lba sectors = .ok header)
    (size : readLe 4 (disk.read lba 1) 12 = 92) (announces : Announces header plan)
    (array : disk.read header.entries_lba header.entrySectors = plan.arrayBytes)
    (kind : plan.kind = .gpt) (sound : plan.Sound) :
    tableAt disk sectors lba = .ok plan.table := by
  have entries := readEntries_eq announces kind sound
  obtain ⟨intact, decoded⟩ := refuse_bind_eq_ok.mp entries
  have supports : ¬(readLe 4 (disk.read lba 1) 12 ≠ 92 ∨ header.entry_size ≠ 128 ∨
      max_entries < header.entry_count) := by
    rw [size, announces.entry_size, announces.entry_count]
    have capacity := sound.capacity
    omega
  unfold tableAt
  rw [parsed, ok_bind, array, refuse_bind_eq_ok, refuse_bind_eq_ok, decoded]
  refine ⟨supports, fun broken => intact (.inr broken), ?_⟩
  rw [ok_bind, announces.disk_guid, announces.first_usable, announces.last_usable]
  rfl

theorem tableAt_backup (kind : plan.kind = .gpt) (sound : plan.Sound)
    (header : disk.read (plan.sectors - 1) 1 = plan.backupHeader)
    (array : disk.read plan.backup_array (arraySectors plan.entry_count) = plan.arrayBytes) :
    tableAt disk plan.sectors (plan.sectors - 1) = .ok plan.table := by
  have announces : Announces (plan.fields (plan.sectors - 1) 1 plan.backup_array plan.checksum) plan :=
    fields_announces
  refine tableAt_committed ?_ ?_ announces ?_ kind sound
  · rw [header]
    exact backupHeader_parsed sound kind
  · rw [header]
    exact header_size_eq
  · rw [announces.sectors]
    exact array

end Tables

section Found

variable {Digest : Type} {plan : Plan Digest} {disk left : Disk} {sectors : Nat}
  {primary backup : Header} {primary_sector backup_sector first second : Bytes} {entries : List Entry}

theorem readGptEntry_image {header : Header} {array : Bytes} {slot : Nat} {entry : Entry}
    (read : readGptEntry header array slot = .ok entry) : entry.gptImage = entry := by
  obtain ⟨found, -, same⟩ := bind_eq_ok.mp read
  cases found with
  | none | some part =>
    cases same
    rfl

theorem readHeaders_accepted
    (read : readHeaders primary_sector backup_sector sectors = .ok (primary, backup)) :
    parseHeader primary_sector 1 sectors = .ok primary ∧ readLe 4 primary_sector 12 = 92 ∧
      primary.entry_size = 128 ∧ primary.entry_count ≤ max_entries := by
  obtain ⟨header, first, others⟩ := bind_eq_ok.mp read
  obtain ⟨other, second, checks⟩ := bind_eq_ok.mp others
  rw [refuse_bind_eq_ok, refuse_bind_eq_ok] at checks
  obtain ⟨layout, -, same⟩ := checks
  obtain ⟨rfl, rfl⟩ := Prod.mk.inj (Except.ok.inj same)
  exact ⟨first, by omega, by omega, by omega⟩

theorem images_of_slots {header : Header} {array : Bytes} {slots : List Nat}
    (read : List.Forall₂ (fun slot entry => readGptEntry header array slot = .ok entry) slots entries) :
    entries.map Entry.gptImage = entries := by
  induction read with
  | nil => rfl
  | cons found _ induction => rw [List.map_cons, readGptEntry_image found, induction]

/-- The entries that were read are images of themselves, one for each slot. -/
theorem readEntries_accepted (read : readEntries primary first second = .ok entries) :
    entries.length = primary.entry_count ∧ entries.map Entry.gptImage = entries := by
  obtain ⟨-, decoded⟩ := refuse_bind_eq_ok.mp read
  have slots := mapM_eq_ok.mp decoded
  exact ⟨by rw [← slots.length_eq, List.length_range], images_of_slots slots⟩

/-- The primary copy of a disk from which a GUID table was read. -/
structure Healthy (disk : Disk) (plan : Plan Digest) (header : Header) : Prop where
  parsed : parseHeader (disk.read 1 1) 1 plan.sectors = .ok header
  array : header.entries_lba = plan.primary_array
  sectors : header.entrySectors = arraySectors plan.entry_count
  table : tableAt disk plan.sectors 1 = .ok plan.table

theorem tableAt_read (parsed : parseHeader (disk.read 1 1) 1 sectors = .ok primary)
    (size : readLe 4 (disk.read 1 1) 12 = 92) (entry_size : primary.entry_size = 128)
    (capacity : primary.entry_count ≤ max_entries)
    (read : readEntries primary (disk.read primary.entries_lba primary.entrySectors) second =
      .ok entries) :
    tableAt disk sectors 1 = .ok ⟨primary.disk_guid, primary.first_usable_lba,
      primary.last_usable_lba, entries⟩ := by
  obtain ⟨intact, decoded⟩ := refuse_bind_eq_ok.mp read
  unfold tableAt
  rw [parsed, ok_bind, refuse_bind_eq_ok, refuse_bind_eq_ok, decoded]
  exact ⟨by omega, fun broken => intact (.inr broken), rfl⟩

theorem gptFound_healthy
    (headers : readHeaders (disk.read 1 1) (disk.read (plan.sectors - 1) 1) plan.sectors =
      .ok (primary, backup))
    (read : readEntries primary (disk.read primary.entries_lba primary.entrySectors) second =
      .ok entries)
    (disk_guid : plan.disk_guid = primary.disk_guid)
    (first_usable : plan.first_usable = primary.first_usable_lba)
    (last_usable : plan.last_usable = primary.last_usable_lba)
    (entry_count : plan.entry_count = primary.entry_count)
    (primary_array : plan.primary_array = primary.entries_lba)
    (slots : plan.entries = entrySlots entries) : Healthy disk plan primary := by
  obtain ⟨parsed, size, entry_size, capacity⟩ := readHeaders_accepted headers
  obtain ⟨length, images⟩ := readEntries_accepted read
  have used : plan.used = entries := by
    rw [Plan.used, slots, entry_count, ← length]
    exact entrySlots_take (by rwa [length])
  refine ⟨parsed, primary_array.symm, ?_, ?_⟩
  · rw [Header.entrySectors, Header.entryBytes, entry_size, entry_count]
    rfl
  · rw [tableAt_read parsed size entry_size capacity read, Plan.table, used, images, disk_guid,
      first_usable, last_usable]

end Found

section Reading

variable {Digest : Type} {plan : Plan Digest} {device : BlockDevice} {scratch : Nat}
  {world : BlockWorld} {tears : Disk → Nat → Bytes → Disk → Prop} {always : BlockWorld → Prop}

/-- Whether a plan says what the primary copy says, if it is about a GUID table. -/
def Faithful (disk : Disk) (plan : Plan Digest) : Prop :=
  plan.kind = .gpt → ∃ header, Healthy disk plan header

theorem readGpt_keeps (always_now : always world) :
    Keeps (blockDevice tears) always
      (fun found after => after = world ∧ Faithful world.disk found.1)
      (plan.readGpt device (world.disk.read 1 1) (world.disk.read (plan.sectors - 1) 1)) world := by
  refine .computed_bind always_now fun headers accepted => ?_
  refine .bind_same (BlockDevice.read_keeps always_now) fun first first_eq => ?_
  refine .bind_same (BlockDevice.read_keeps always_now) fun second _ => ?_
  refine .computed_bind always_now fun entries decoded => ?_
  subst first_eq
  refine .pure always_now ⟨rfl, fun _ => ⟨headers.1, ?_⟩⟩
  exact gptFound_healthy accepted decoded rfl rfl rfl rfl rfl rfl

theorem readTable_keeps (plan : Plan Digest) (always_now : always world) (kind : plan.kind = .none)
    {mbr : Bytes} :
    Keeps (blockDevice tears) always
      (fun found after => after = world ∧ Faithful world.disk found.1)
      (plan.readTable device mbr (world.disk.read 1 1) (world.disk.read (plan.sectors - 1) 1))
      world := by
  unfold Plan.readTable
  split
  · refine .computed_bind always_now fun counts _ => ?_
    split
    · split
      · exact .throw always_now
      · exact readGpt_keeps always_now
    · refine .computed_bind always_now fun found read => ?_
      obtain ⟨entries, -, same⟩ := bind_eq_ok.mp read
      cases same
      exact .pure always_now ⟨rfl, nofun⟩
  · refine .pure always_now ⟨rfl, fun is_gpt => ?_⟩
    exact absurd (kind.symm.trans is_gpt) (by decide)

variable [DecidableEq Digest] {sha256 : Bytes → Digest}

/-- A plan of a GUID table that was read describes the primary copy. -/
theorem Plan.read_keeps (always_now : always world) :
    Keeps (blockDevice tears) always (fun found after => after = world ∧ Faithful world.disk found)
      (Plan.read sha256 device scratch) world := by
  refine .computed_bind always_now fun _ _ => ?_
  refine .require_bind always_now fun _ => ?_
  refine .bind_same (BlockDevice.read_keeps always_now) fun mbr _ => ?_
  refine .bind_same (BlockDevice.read_keeps always_now) fun primary primary_eq => ?_
  refine .bind_same (BlockDevice.read_keeps always_now) fun backup backup_eq => ?_
  subst primary_eq backup_eq
  refine .bind_same (readTable_keeps (Plan.start device.sectors mbr) always_now rfl)
    fun found faithful => ?_
  refine .computed_bind always_now fun _ _ => ?_
  refine .bind_same (Source.hash_keeps always_now) fun current _ => ?_
  refine .require_bind always_now fun _ => ?_
  refine .pure always_now ⟨rfl, fun kind => ?_⟩
  obtain ⟨header, healthy⟩ := faithful kind
  exact ⟨header, healthy.parsed, healthy.array, healthy.sectors, healthy.table⟩

end Reading

section Edits

variable {Digest : Type} {plan next old : Plan Digest}

/-- What the operations make of a plan; a partition that was looked up may be changed at will. -/
inductive Edit (plan : Plan Digest) : Plan Digest → Prop
  | add (entry : Entry) : Edit plan (plan.add entry).2
  | remove (number : Nat) : Edit plan (plan.remove number).2
  | extend (number : Nat) (extra_sectors : Option Nat) : Edit plan (plan.extend number extra_sectors).2
  | shrink (number remove_sectors : Nat) : Edit plan (plan.shrink number remove_sectors).2
  | get (number : Nat) (slot : Fin max_entries) (found : plan.slotOf number = some slot)
      (entry : Entry) : Edit plan (plan.setEntry slot entry)

theorem resize_frame (slot : Fin max_entries) (count : Nat) :
    ∃ entries, (plan.resize slot count).2 = { plan with entries } := by
  unfold Plan.resize
  split
  · exact ⟨plan.entries, rfl⟩
  · exact ⟨_, rfl⟩

theorem Edit.frame (edit : Edit plan next) : ∃ entries, next = { plan with entries } := by
  cases edit with
  | add entry =>
    unfold Plan.add
    split
    · exact ⟨plan.entries, rfl⟩
    split
    · exact ⟨plan.entries, rfl⟩
    split
    · exact ⟨_, rfl⟩
    · exact ⟨_, rfl⟩
  | remove number =>
    unfold Plan.remove
    split
    · exact ⟨plan.entries, rfl⟩
    · exact ⟨_, rfl⟩
  | extend number extra_sectors =>
    unfold Plan.extend
    split
    · exact ⟨plan.entries, rfl⟩
    split
    · exact ⟨plan.entries, rfl⟩
    dsimp only
    split
    · exact ⟨plan.entries, rfl⟩
    · exact resize_frame _ _
  | shrink number remove_sectors =>
    unfold Plan.shrink
    split
    · exact ⟨plan.entries, rfl⟩
    split
    · exact ⟨plan.entries, rfl⟩
    dsimp only
    split
    · exact ⟨plan.entries, rfl⟩
    · exact resize_frame _ _
  | get number slot found entry => exact ⟨_, rfl⟩

theorem edits_frame (edits : Relation.ReflTransGen Edit old plan) :
    ∃ entries, plan = { old with entries } := by
  induction edits with
  | refl => exact ⟨old.entries, rfl⟩
  | tail _ edit induction =>
    obtain ⟨entries, rfl⟩ := induction
    obtain ⟨entries', rfl⟩ := edit.frame
    exact ⟨entries', rfl⟩

end Edits

section Safety

variable {Digest : Type} {plan old : Plan Digest} {device : BlockDevice}
  {world after during : BlockWorld} {header : Header}

/-- What is left of a GUID table wherever its commit stops. -/
structure Survives (world : BlockWorld) (old plan : Plan Digest) (after : BlockWorld) : Prop where
  table : tableAt after.disk old.sectors 1 = .ok old.table ∨
    tableAt after.disk old.sectors (old.sectors - 1) = .ok plan.table
  written : ∃ log, after.written = world.written ++ log ∧
    ∀ write ∈ log, write.1 + write.2 ≤ old.first_usable ∨ old.last_usable < write.1
  unchanged : world.disk.SameOn after.disk old.first_usable (old.last_usable + 1 - old.first_usable)

/-- The writes of a commit that come before the primary copy is touched, and the others. -/
theorem writes_split : plan.writes =
    [(plan.backup_array, plan.arrayBytes), (plan.sectors - 1, plan.backupHeader)] ++
      [(plan.primary_array, plan.arrayBytes), (1, plan.primaryHeader), (0, plan.mbrBytes)] := rfl

/-- Every write is whole sectors beside the usable range. -/
theorem writes_beside_usable (kind : plan.kind = .gpt) (sound : plan.Sound) :
    WritesBeside plan.writes plan.first_usable (plan.last_usable + 1 - plan.first_usable) := by
  obtain ⟨-, some_entries, after_header, before_usable, behind_usable, before_header⟩ :=
    sound.kind.gpt kind
  have usable := sound.usable
  have array_pos := arraySectors_pos some_entries
  have array := arrayBytes_length sound.capacity
  intro write member
  simp only [Plan.writes, List.mem_cons, List.not_mem_nil, or_false] at member
  obtain rfl | rfl | rfl | rfl | rfl := member
  · exact ⟨_, array, by dsimp only; omega⟩
  · exact ⟨1, header_length, by dsimp only; omega⟩
  · exact ⟨_, array, by dsimp only; omega⟩
  · exact ⟨1, header_length, by dsimp only; omega⟩
  · exact ⟨1, mbrBytes_length, by dsimp only; omega⟩

theorem Interrupted.table (kind : plan.kind = .gpt) (sound : plan.Sound)
    (healthy : Healthy world.disk old header) (sectors : old.sectors = plan.sectors)
    (primary : old.primary_array = plan.primary_array) (count : old.entry_count = plan.entry_count)
    (stopped : Interrupted cutAnywhere plan.writes world after) :
    tableAt after.disk old.sectors 1 = .ok old.table ∨
      tableAt after.disk old.sectors (old.sectors - 1) = .ok plan.table := by
  obtain ⟨-, some_entries, after_header, before_usable, behind_usable, before_header⟩ :=
    sound.kind.gpt kind
  have usable := sound.usable
  have array_pos := arraySectors_pos some_entries
  have array := arrayBytes_length sound.capacity
  rw [writes_split] at stopped
  obtain early | late := stopped.split
  · -- the primary copy is as it was
    have beside (lba size : Nat) (low : lba + size ≤ plan.first_usable) :
        WritesBeside [(plan.backup_array, plan.arrayBytes), (plan.sectors - 1, plan.backupHeader)]
          lba size := by
      intro write member
      simp only [List.mem_cons, List.not_mem_nil, or_false] at member
      obtain rfl | rfl := member
      · exact ⟨_, array, by dsimp only; omega⟩
      · exact ⟨1, header_length, by dsimp only; omega⟩
    refine .inl ?_
    rw [← healthy.table]
    refine tableAt_congr healthy.parsed (early.sameOn (beside _ _ (by omega))) ?_
    rw [healthy.array, healthy.sectors, primary, count]
    exact early.sameOn (beside _ _ (by omega))
  · -- the backup copy is written and stays
    have beside (lba size : Nat) (high : plan.last_usable < lba) (positive : 0 < size) :
        WritesBeside [(plan.primary_array, plan.arrayBytes), (1, plan.primaryHeader),
          (0, plan.mbrBytes)] lba size := by
      intro write member
      simp only [List.mem_cons, List.not_mem_nil, or_false] at member
      obtain rfl | rfl | rfl := member
      · exact ⟨_, array, by dsimp only; omega⟩
      · exact ⟨1, header_length, by dsimp only; omega⟩
      · exact ⟨1, mbrBytes_length, by dsimp only; omega⟩
    have header_kept := (late.sameOn (beside (plan.sectors - 1) 1 (by omega) one_pos)).read_eq
    have array_kept := (late.sameOn (beside plan.backup_array _ (by omega) array_pos)).read_eq
    refine .inr ?_
    rw [sectors]
    refine tableAt_backup kind sound (header_kept.symm.trans ?_) (array_kept.symm.trans ?_)
    · exact Disk.write_read _ _ header_length
    · refine (Disk.write_read_other (show _ = sector_size * 1 from header_length) (by omega)).trans ?_
      exact Disk.write_read _ _ array

variable [DecidableEq Digest] {sha256 : Bytes → Digest} {scratch work : Nat}
  {outcome : Option (Except Fault Unit)}

/-- Wherever a commit of an edited GUID table stops, the primary copy still describes the old table
or the backup copy already describes the new one, and the usable range was not written. -/
theorem commit_crash_safe
    (read : Execution (blockDevice cutAnywhere) (Plan.read sha256 device scratch).run world
      (some (.ok old)) world)
    (healthy : old.kind = .gpt) (edits : Relation.ReflTransGen Edit old plan)
    (execution : Execution (blockDevice cutAnywhere) (plan.commit sha256 device work).run world
      outcome after) : Survives world old plan after := by
  have reading : Keeps (blockDevice cutAnywhere) (fun _ => True)
      (fun found after => after = world ∧ Faithful world.disk found)
      (Plan.read sha256 device scratch) world := Plan.read_keeps trivial
  obtain ⟨-, found⟩ := reading.sound read
  obtain ⟨header, primary⟩ := (found old rfl).2 healthy
  obtain ⟨entries, plan_eq⟩ := edits_frame edits
  have kind : plan.kind = .gpt := by rw [plan_eq]; exact healthy
  obtain ⟨stage, -⟩ := Keeps.sound (commit_keeps_gpt kind) execution
  obtain rfl | ⟨committable, stopped⟩ := stage
  · exact ⟨.inl primary.table, ⟨[], (List.append_nil _).symm, nofun⟩, Disk.SameOn.refl _ _ _⟩
  have sound := committable.sound
  have usable := writes_beside_usable kind sound
  have same_first : old.first_usable = plan.first_usable := by rw [plan_eq]
  have same_last : old.last_usable = plan.last_usable := by rw [plan_eq]
  refine ⟨?_, ?_, ?_⟩
  · exact Interrupted.table kind sound primary (by rw [plan_eq]) (by rw [plan_eq]) (by rw [plan_eq])
      stopped
  · obtain ⟨log, log_eq, logged⟩ := stopped.written
    refine ⟨log, log_eq, fun entry member => ?_⟩
    obtain ⟨write, written, rfl⟩ := logged entry member
    obtain ⟨size, sized, apart⟩ := usable write written
    have range := sound.usable
    rw [sized, Nat.mul_div_cancel_left _ (by decide : 0 < sector_size), same_first, same_last]
    omega
  · rw [same_first, same_last]
    exact stopped.sameOn usable

end Safety

theorem commit_crash_safe_sample :
    ∃ old : Plan Unit, old.kind = .gpt ∧
      Survives (wroteAll ⟨fun _ => 0, []⟩ samplePlan.writes) old (old.remove 1).2
        (((old.remove 1).2.commit (fun _ => ()) ⟨68, 512, true⟩ 32768).run.run idealDisk
          (wroteAll ⟨fun _ => 0, []⟩ samplePlan.writes)).2 := by
  have published : Published samplePlan (wroteAll ⟨fun _ => 0, []⟩ samplePlan.writes).disk :=
    writes_published rfl samplePlan_committable.sound
  obtain ⟨old, returns, same⟩ := @Published.read_back Unit samplePlan ⟨68, 512, true⟩ 32768
    (wroteAll ⟨fun _ => 0, []⟩ samplePlan.writes) _ (fun _ => ()) published samplePlan_committable rfl
    (by decide) (by decide)
  exact ⟨old, same.kind, commit_crash_safe (returns.execution cutAnywhere) same.kind
    (Relation.ReflTransGen.single (.remove 1)) (Program.run_execution (idealDisk_device _) _ _)⟩

end R4OS.Gpt
