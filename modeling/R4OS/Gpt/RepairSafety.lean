import R4OS.Gpt.Report

/-!
# Safety of the repair

Repair writes the damaged copy only, and wherever it stops the surviving copy is what it was and a
fresh report is healthy or repairable from the same side.
-/

namespace R4OS.Gpt

open Block Crash Text

section Counterpart

variable {sector : Bytes} {current other entries place size : Nat}

/-- The header before its checksum. -/
def moved (sector : Bytes) (current other entries : Nat) : Bytes :=
  put (put (put (put sector 24 (leBytes 8 current)) 32 (leBytes 8 other)) 72 (leBytes 8 entries)) 16
    (leBytes 4 0)

theorem counterpart_eq (sector : Bytes) (current other entries : Nat) :
    counterpart sector current other entries =
      put (moved sector current other entries) 16
        (leBytes 4 (crc (slice (moved sector current other entries) 0 92))) := rfl

variable (sized : sector.length = 512)

include sized

theorem put_lengths (current other entries : Nat) :
    (put sector 24 (leBytes 8 current)).length = 512 ∧
      (put (put sector 24 (leBytes 8 current)) 32 (leBytes 8 other)).length = 512 ∧
      (put (put (put sector 24 (leBytes 8 current)) 32 (leBytes 8 other)) 72
        (leBytes 8 entries)).length = 512 := by
  have first : (put sector 24 (leBytes 8 current)).length = 512 :=
    put_sized sized (by rw [leBytes_length]; omega)
  have second : (put (put sector 24 (leBytes 8 current)) 32 (leBytes 8 other)).length = 512 :=
    put_sized first (by rw [leBytes_length]; omega)
  exact ⟨first, second, put_sized second (by rw [leBytes_length]; omega)⟩

theorem moved_length (current other entries : Nat) :
    (moved sector current other entries).length = 512 := by
  exact put_sized (put_lengths sized current other entries).2.2 (by rw [leBytes_length]; omega)

theorem counterpart_length (current other entries : Nat) :
    (counterpart sector current other entries).length = 512 :=
  put_sized (moved_length sized current other entries) (by rw [leBytes_length]; omega)

theorem slice_counterpart (shared : place + size ≤ 16 ∨ 20 ≤ place ∧ place + size ≤ 24 ∨
      40 ≤ place ∧ place + size ≤ 72 ∨ 80 ≤ place) :
    slice (counterpart sector current other entries) place size = slice sector place size := by
  obtain ⟨first, second, third⟩ := put_lengths sized current other entries
  have fourth := moved_length sized current other entries
  rw [counterpart_eq, slice_put_other, moved, slice_put_other, slice_put_other, slice_put_other,
    slice_put_other] <;> rw [leBytes_length] <;> omega

theorem decode_counterpart (current_lt : current < 256 ^ 8)
    (other_lt : other < 256 ^ 8) (entries_lt : entries < 256 ^ 8) :
    Header.decode (counterpart sector current other entries) =
      { Header.decode sector with
        current_lba := current, backup_lba := other, entries_lba := entries } := by
  obtain ⟨first, second, third⟩ := put_lengths sized current other entries
  have fourth := moved_length sized current other entries
  have current_eq : readLe 8 (counterpart sector current other entries) 24 = current := by
    rw [counterpart_eq, readLe_put_other, moved, readLe_put_other, readLe_put_other,
      readLe_put_other, readLe_put] <;> (try rw [leBytes_length]) <;> omega
  have other_eq : readLe 8 (counterpart sector current other entries) 32 = other := by
    rw [counterpart_eq, readLe_put_other, moved, readLe_put_other, readLe_put_other, readLe_put] <;>
      (try rw [leBytes_length]) <;> omega
  have entries_eq : readLe 8 (counterpart sector current other entries) 72 = entries := by
    rw [counterpart_eq, readLe_put_other, moved, readLe_put_other, readLe_put] <;>
      (try rw [leBytes_length]) <;> omega
  have kept {place size : Nat} (shared : place + size ≤ 16 ∨ 20 ≤ place ∧ place + size ≤ 24 ∨
      40 ≤ place ∧ place + size ≤ 72 ∨ 80 ≤ place) :
      slice (counterpart sector current other entries) place size = slice sector place size :=
    slice_counterpart sized shared
  unfold Header.decode
  rw [current_eq, other_eq, entries_eq, fixed_of_slice (kept (by omega)),
    readLe_of_slice (kept (by omega)),
    readLe_of_slice (kept (by omega)), readLe_of_slice (kept (by omega)), readLe_of_slice (kept (by omega)), readLe_of_slice (kept (by omega))]

end Counterpart

section Runs

variable {Digest : Type} {sha256 : Bytes → Digest} {disk : Disk} {device : BlockDevice}
  {bad : Fin 2} {header : Header} {work : Nat}

/-- A failed or cut write left everything or nothing. -/
def whole (before : Disk) (lba : Nat) (data : Bytes) (after : Disk) : Prop :=
  after = before ∨ after = before.write lba data

/-- Where the entries of the damaged copy go. -/
def targetLba (disk : Disk) (sectors : Nat) (bad : Fin 2) (header : Header) : Nat :=
  arrayLba sectors bad header (Copy.of disk (headerLba sectors bad) sectors).header

def repairedHeader (disk : Disk) (sectors : Nat) (bad : Fin 2) (header : Header) : Bytes :=
  counterpart (disk.read (headerLba sectors (otherCopy bad)) 1) (headerLba sectors bad)
    header.current_lba (targetLba disk sectors bad header)

/-- The disk with the entries of the repaired copy. -/
def withArray (disk : Disk) (sectors : Nat) (bad : Fin 2) (header : Header) : Disk :=
  disk.write (targetLba disk sectors bad header) (disk.read header.entries_lba header.entrySectors)

/-- The disk with the repaired copy. -/
def withHeader (disk : Disk) (sectors : Nat) (bad : Fin 2) (header : Header) : Disk :=
  (withArray disk sectors bad header).write (headerLba sectors bad)
    (repairedHeader disk sectors bad header)

/-- What the parser admits before anything is written. -/
def Admitted (disk : Disk) (sectors : Nat) (bad : Fin 2) (header : Header) : Prop :=
  ∃ repaired, parseHeader (repairedHeader disk sectors bad header) (headerLba sectors bad) sectors =
    .ok repaired

/-- Where a run of the repair may stop. -/
inductive RepairStage (disk : Disk) (sectors : Nat) (bad : Fin 2) (header : Header) :
    BlockWorld → Prop
  | untouched : RepairStage disk sectors bad header ⟨disk, []⟩
  | array {left : Disk} (admitted : Admitted disk sectors bad header)
      (torn : left = disk ∨ left = withArray disk sectors bad header) :
      RepairStage disk sectors bad header
        ⟨left, [(targetLba disk sectors bad header, header.entrySectors)]⟩
  | published {left : Disk} (admitted : Admitted disk sectors bad header)
      (torn : left = withArray disk sectors bad header ∨ left = withHeader disk sectors bad header) :
      RepairStage disk sectors bad header
        ⟨left, [(targetLba disk sectors bad header, header.entrySectors),
          (headerLba sectors bad, 1)]⟩

theorem repairedHeader_length (disk : Disk) (sectors : Nat) (bad : Fin 2) (header : Header) :
    (repairedHeader disk sectors bad header).length = 512 := by
  unfold repairedHeader
  exact counterpart_length (by rw [Disk.read_length]; rfl) _ _ _

theorem restoreCopy_keeps (intact : Intact disk (headerLba device.sectors (1 - bad)) device.sectors header)
    (small : header.entrySectors ≤ 32) :
    Keeps (blockDevice whole) (RepairStage disk device.sectors bad header)
      (fun _ after => Admitted disk device.sectors bad header ∧
        after.disk = withHeader disk device.sectors bad header)
      ((Report.of sha256 disk device.sectors).restoreCopy device work bad
        (Copy.of disk (headerLba device.sectors (1 - bad)) device.sectors) header) ⟨disk, []⟩ := by
  rw [intact.copy_eq]
  unfold Report.restoreCopy
  rw [Report.of_copies, Report.of_sectors]
  have header_eq : counterpart (disk.read (headerLba device.sectors (1 - bad)) 1)
      (headerLba device.sectors bad) header.current_lba
      (targetLba disk device.sectors bad header) = repairedHeader disk device.sectors bad header := by
    rw [repairedHeader, otherCopy_eq]
  have target_eq : arrayLba device.sectors bad header
      (Copy.of disk (headerLba device.sectors bad) device.sectors).header =
        targetLba disk device.sectors bad header := rfl
  simp only
  rw [target_eq, header_eq]
  generalize (Report.of sha256 disk device.sectors).mbr = mbr
  generalize parsed : parseHeader (repairedHeader disk device.sectors bad header)
    (headerLba device.sectors bad) device.sectors = parse
  refine .computed_bind .untouched fun repaired parse_eq => ?_
  have admitted : Admitted disk device.sectors bad header := ⟨repaired, parsed.trans parse_eq⟩
  have array_length : (disk.read header.entries_lba header.entrySectors).length =
      sector_size * header.entrySectors := Disk.read_length _ _ _
  have array_sectors : (disk.read header.entries_lba header.entrySectors).length / sector_size =
      header.entrySectors := by
    rw [array_length, Nat.mul_div_cancel_left _ (by decide)]
  have header_sectors : (repairedHeader disk device.sectors bad header).length / sector_size = 1 := by
    rw [repairedHeader_length]
    rfl
  have wrote_array : Keeps (blockDevice whole) (RepairStage disk device.sectors bad header)
      (fun _ after => after = ⟨withArray disk device.sectors bad header,
        [(targetLba disk device.sectors bad header, header.entrySectors)]⟩)
      (device.write (targetLba disk device.sectors bad header)
        (disk.read header.entries_lba header.entrySectors)) ⟨disk, []⟩ := by
    refine BlockDevice.write_keeps .untouched ?_ ?_ ?_
    · rw [array_length, show max_transfer_bytes = sector_size * 256 from rfl]
      exact Nat.mul_le_mul_left _ (by omega)
    · rw [array_sectors]
      exact ⟨.array admitted (.inr rfl), rfl⟩
    · intro left torn
      rw [array_sectors]
      exact .array admitted torn
  refine .bind wrote_array fun _ after kept after_eq => ?_
  subst after_eq
  refine .bind_same (BlockDevice.flush_keeps kept) fun _ _ => ?_
  refine .bind_same (BlockDevice.verify_keeps kept) fun _ _ => ?_
  have wrote_header : Keeps (blockDevice whole) (RepairStage disk device.sectors bad header)
      (fun _ after => after = ⟨withHeader disk device.sectors bad header,
        [(targetLba disk device.sectors bad header, header.entrySectors),
          (headerLba device.sectors bad, 1)]⟩)
      (device.write (headerLba device.sectors bad) (repairedHeader disk device.sectors bad header))
      ⟨withArray disk device.sectors bad header,
        [(targetLba disk device.sectors bad header, header.entrySectors)]⟩ := by
    refine BlockDevice.write_keeps kept ?_ ?_ ?_
    · rw [repairedHeader_length]
      decide
    · rw [header_sectors]
      exact ⟨.published admitted (.inr rfl), rfl⟩
    · intro left torn
      rw [header_sectors]
      exact .published admitted torn
  refine .bind wrote_header fun _ after kept after_eq => ?_
  subst after_eq
  refine .bind_same (BlockDevice.flush_keeps kept) fun _ _ => ?_
  refine .bind_same (BlockDevice.verify_keeps kept) fun _ _ => ?_
  refine .bind_same (BlockDevice.verify_keeps kept) fun _ _ => ?_
  refine .bind_same (BlockDevice.verify_keeps kept) fun _ _ => ?_
  refine (BlockDevice.verify_keeps kept).mono ?_
  rintro _ after _ ⟨rfl, -⟩
  exact ⟨admitted, rfl⟩

theorem Intact.entrySectors_le {lba sectors : Nat} (intact : Intact disk lba sectors header) :
    header.entrySectors ≤ 32 := by
  have supports := intact.supports
  simp only [supported, Bool.and_eq_true, decide_eq_true_eq] at supports
  obtain ⟨⟨-, size⟩, count⟩ := supports
  have limit : max_entries = 128 := rfl
  unfold Header.entrySectors Header.entryBytes logical_sector_size
  rw [size]
  omega

variable [DecidableEq Digest]

theorem Report.repair_keeps {tears : Disk → Nat → Bytes → Disk → Prop}
    {always post : BlockWorld → Prop} {world : BlockWorld} {report : Report Digest}
    (always_now : always world) (repairable : report.repairable = .ok bad)
    (good : (report.copies (1 - bad)).header = some header)
    (restored : Keeps (blockDevice tears) always (fun _ after => post after)
      (report.restoreCopy device work bad (report.copies (1 - bad)) header) world) :
    Keeps (blockDevice tears) always (fun _ after => post after) (report.repair sha256 device work)
      world := by
  unfold Report.repair
  refine .computed_bind always_now fun found found_eq => ?_
  obtain rfl : bad = found := Except.ok.inj (repairable.symm.trans found_eq)
  refine .computed_bind always_now fun _ _ => ?_
  refine .require_bind always_now fun _ => ?_
  refine .bind_same (Report.read_keeps always_now) fun current _ => ?_
  refine .require_bind always_now fun _ => ?_
  rw [good]
  exact restored

theorem repair_keeps (intact : Intact disk (headerLba device.sectors (1 - bad)) device.sectors header)
    (repairable : (Report.of sha256 disk device.sectors).repairable = .ok bad) :
    Keeps (blockDevice whole) (RepairStage disk device.sectors bad header)
      (fun _ after => Admitted disk device.sectors bad header ∧
        after.disk = withHeader disk device.sectors bad header)
      ((Report.of sha256 disk device.sectors).repair sha256 device work) ⟨disk, []⟩ := by
  have good : ((Report.of sha256 disk device.sectors).copies (1 - bad)).header = some header := by
    rw [Report.of_copies, intact.copy_eq]
  have restored := @restoreCopy_keeps Digest sha256 disk device bad header work intact
    intact.entrySectors_le
  rw [← @Report.of_copies Digest sha256 disk device.sectors] at restored
  exact Report.repair_keeps .untouched repairable good restored

end Runs

section Places

variable {disk left : Disk} {sectors : Nat} {bad : Fin 2} {header : Header}

/-- Sectors that do not meet. -/
def Apart (first count other size : Nat) : Prop := first + count ≤ other ∨ other + size ≤ first

/-- The parser's verdict on a header, in numbers. -/
theorem decode_of_parsed {lba : Nat} (parsed : parseHeader (disk.read lba 1) lba sectors = .ok header) :
    header = Header.decode (disk.read lba 1) ∧ header.Sound lba sectors :=
  let found := parseHeader_eq_ok.mp parsed
  ⟨found.1, found.2.2⟩

theorem Header.decode_entries_lt (sector : Bytes) : (Header.decode sector).entries_lba < 256 ^ 8 :=
  readLe_lt 8 sector 72

theorem Header.decode_current_lt (sector : Bytes) : (Header.decode sector).current_lba < 256 ^ 8 :=
  readLe_lt 8 sector 24

theorem targetLba_lt (bounded : sectors < 256 ^ 8) : targetLba disk sectors bad header < 256 ^ 8 := by
  unfold targetLba
  cases parsed : parseHeader (disk.read (headerLba sectors bad) 1) (headerLba sectors bad) sectors with
  | error reason =>
    rw [Copy.of_unparsed parsed, arrayLba]
    split
    · decide
    · omega
  | ok old =>
    have entries_lt : old.entries_lba < 256 ^ 8 := by
      rw [(decode_of_parsed parsed).1]
      exact Header.decode_entries_lt _
    by_cases supports : supported (disk.read (headerLba sectors bad) 1) old = true
    · rw [Copy.of_supported parsed supports]
      exact entries_lt
    · rw [Copy.of_unsupported parsed supports]
      exact entries_lt

/-- What the repaired copy says. -/
theorem Admitted.repaired (admitted : Admitted disk sectors bad header)
    (intact : Intact disk (headerLba sectors (1 - bad)) sectors header) (bounded : sectors < 256 ^ 8) :
    parseHeader (repairedHeader disk sectors bad header) (headerLba sectors bad) sectors =
        .ok { header with
          current_lba := headerLba sectors bad
          backup_lba := header.current_lba
          entries_lba := targetLba disk sectors bad header } := by
  obtain ⟨repaired, parsed⟩ := admitted
  have decoded := (parseHeader_eq_ok.mp parsed).1
  obtain ⟨header_eq, -⟩ := decode_of_parsed intact.parsed
  have lba_lt : headerLba sectors bad < 256 ^ 8 := by
    unfold headerLba
    split <;> omega
  have current_lt : header.current_lba < 256 ^ 8 := by
    rw [header_eq]
    exact Header.decode_current_lt _
  have sized : (disk.read (headerLba sectors (1 - bad)) 1).length = 512 := by
    rw [Disk.read_length]
    rfl
  have fields := decode_counterpart sized lba_lt current_lt
    (@targetLba_lt disk sectors bad header bounded)
  rw [← header_eq] at fields
  rw [parsed, decoded, repairedHeader, otherCopy_eq, fields]

/-- The places of a copy do not matter to the check of its entries. -/
theorem validateCopy_moved (header : Header) (array : Bytes) (sectors current backup entries : Nat) :
    validateCopy { header with current_lba := current, backup_lba := backup, entries_lba := entries }
      array sectors = validateCopy header array sectors := rfl

/-- Where the copies lie. -/
structure Layout (disk : Disk) (sectors : Nat) (bad : Fin 2) (header : Header) : Prop where
  current : header.current_lba = headerLba sectors (1 - bad)
  used : 0 < header.entrySectors
  usable : header.first_usable_lba ≤ header.last_usable_lba
  primary : bad = 0 → 1 < targetLba disk sectors bad header ∧
    targetLba disk sectors bad header + header.entrySectors ≤ header.first_usable_lba ∧
    header.last_usable_lba < header.entries_lba ∧
    header.entries_lba + header.entrySectors ≤ sectors - 1
  backup : bad = 1 → 1 < header.entries_lba ∧
    header.entries_lba + header.entrySectors ≤ header.first_usable_lba ∧
    header.last_usable_lba < targetLba disk sectors bad header ∧
    targetLba disk sectors bad header + header.entrySectors ≤ sectors - 1

theorem Admitted.layout (admitted : Admitted disk sectors bad header)
    (intact : Intact disk (headerLba sectors (1 - bad)) sectors header) (bounded : sectors < 256 ^ 8)
    (large : 68 ≤ sectors) : Layout disk sectors bad header := by
  have sound := (decode_of_parsed intact.parsed).2
  have repaired := (parseHeader_eq_ok.mp (admitted.repaired intact bounded)).2.2
  obtain rfl | rfl : bad = 0 ∨ bad = 1 := by omega
  · have last : headerLba sectors (1 - 0) = sectors - 1 := rfl
    rw [last] at sound
    have placed := sound.placed.backup (by omega)
    have target := repaired.placed.primary rfl
    exact ⟨sound.current, sound.entries.1, sound.usable.1,
      fun _ => ⟨target.2.1, target.2.2, placed.2.2.1, placed.2.2.2⟩, nofun⟩
  · have last : headerLba sectors 1 = sectors - 1 := rfl
    have placed := sound.placed.primary rfl
    have target := repaired.placed.backup (by rw [last]; omega)
    exact ⟨sound.current, sound.entries.1, sound.usable.1, nofun,
      fun _ => ⟨placed.2.1, placed.2.2, target.2.2.1, target.2.2.2.trans_eq last⟩⟩

/-- The sectors that the repair must not touch: the boot record, the surviving copy and the usable
range. -/
def sparedPlaces (header : Header) : List (Nat × Nat) :=
  [(0, 1), (header.current_lba, 1), (header.entries_lba, header.entrySectors),
    (header.first_usable_lba, header.last_usable_lba + 1 - header.first_usable_lba)]

theorem Layout.apart (layout : Layout disk sectors bad header) :
    ((∀ place ∈ sparedPlaces header,
          Apart (targetLba disk sectors bad header) header.entrySectors place.1 place.2) ∧
        ∀ place ∈ sparedPlaces header, Apart (headerLba sectors bad) 1 place.1 place.2) ∧
      Apart (targetLba disk sectors bad header) header.entrySectors (headerLba sectors bad) 1 := by
  obtain ⟨current, used, usable, primary, backup⟩ := layout
  simp only [sparedPlaces, List.forall_mem_cons, Apart]
  obtain rfl | rfl : bad = 0 ∨ bad = 1 := by omega
  · have last : headerLba sectors (1 - 0) = sectors - 1 := rfl
    have first : headerLba sectors 0 = 1 := rfl
    have places := primary rfl
    rw [current, last, first]
    exact ⟨⟨⟨by omega, by omega, by omega, by omega, nofun⟩,
      by omega, by omega, by omega, by omega, nofun⟩, by omega⟩
  · have first : headerLba sectors (1 - 1) = 1 := rfl
    have last : headerLba sectors 1 = sectors - 1 := rfl
    have places := backup rfl
    rw [current, first, last]
    exact ⟨⟨⟨by omega, by omega, by omega, by omega, nofun⟩,
      by omega, by omega, by omega, by omega, nofun⟩, by omega⟩

theorem Apart.sameOn {first count other size : Nat} (apart : Apart first count other size)
    (same : disk.SameBeside left first count) : disk.SameOn left other size :=
  same.sameOn apart.symm

theorem withArray_sameBeside (disk : Disk) (sectors : Nat) (bad : Fin 2) (header : Header) :
    disk.SameBeside (withArray disk sectors bad header) (targetLba disk sectors bad header)
      header.entrySectors :=
  Disk.write_sameBeside disk _ (Disk.read_length _ _ _)

theorem withHeader_sameBeside (disk : Disk) (sectors : Nat) (bad : Fin 2) (header : Header) :
    (withArray disk sectors bad header).SameBeside (withHeader disk sectors bad header)
      (headerLba sectors bad) 1 :=
  Disk.write_sameBeside _ _ (repairedHeader_length disk sectors bad header)

theorem Layout.withArray_same (layout : Layout disk sectors bad header)
    {place : Nat × Nat} (member : place ∈ sparedPlaces header) :
    disk.SameOn (withArray disk sectors bad header) place.1 place.2 :=
  (layout.apart.1.1 place member).sameOn (withArray_sameBeside disk sectors bad header)

theorem Layout.withHeader_same (layout : Layout disk sectors bad header)
    {place : Nat × Nat} (member : place ∈ sparedPlaces header) :
    disk.SameOn (withHeader disk sectors bad header) place.1 place.2 :=
  (layout.withArray_same member).trans
    ((layout.apart.1.2 place member).sameOn
      (withHeader_sameBeside disk sectors bad header))

theorem Intact.same (intact : Intact disk (headerLba sectors (1 - bad)) sectors header)
    (current : header.current_lba = headerLba sectors (1 - bad))
    (same : ∀ place ∈ sparedPlaces header, disk.SameOn left place.1 place.2) :
    Copy.of left (headerLba sectors (1 - bad)) sectors =
      Copy.of disk (headerLba sectors (1 - bad)) sectors := by
  have sector := same (header.current_lba, 1) (by simp [sparedPlaces])
  have array := same (header.entries_lba, header.entrySectors) (by simp [sparedPlaces])
  rw [current] at sector
  refine (Copy.of_congr sector fun found parsed => ?_).symm
  obtain rfl := Except.ok.inj (intact.parsed.symm.trans parsed)
  exact array

end Places

section Fresh

variable {Digest : Type} {sha256 : Bytes → Digest} {disk left : Disk} {sectors : Nat} {bad : Fin 2}
  {header : Header}

theorem Report.make_reason (mbr : Bytes) (primary backup : Copy) :
    (Report.make sha256 sectors mbr primary backup).mbr_reason = faultOf (checkMbr mbr sectors) := rfl

theorem Report.of_reason :
    (Report.of sha256 disk sectors).mbr_reason = faultOf (checkMbr (disk.read 0 1) sectors) := by
  rw [Report.of, Report.make_reason]

theorem Report.of_verdict (damaged : Damaged (Report.of sha256 disk sectors) bad)
    (intact : Intact disk (headerLba sectors (1 - bad)) sectors header)
    (current : header.current_lba = headerLba sectors (1 - bad))
    (same : ∀ place ∈ sparedPlaces header, disk.SameOn left place.1 place.2)
    (relation : ∀ old, (Copy.of left (headerLba sectors bad) sectors).header = some old →
      related old header = true)
    (arrays : ∀ old, (Copy.of left (headerLba sectors bad) sectors).header = some old →
      (Copy.of left (headerLba sectors bad) sectors).valid = true →
      (Copy.of left (headerLba sectors bad) sectors).array =
        disk.read header.entries_lba header.entrySectors) :
    ((Copy.of left (headerLba sectors bad) sectors).valid = true →
        (Report.of sha256 left sectors).status = .healthy) ∧
      ((Copy.of left (headerLba sectors bad) sectors).valid = false →
        (Report.of sha256 left sectors).repairable = .ok bad) := by
  have survivor := intact.same current same
  have mbr := (same (0, 1) (by simp [sparedPlaces])).read_eq
  have good : (Report.of sha256 left sectors).copies (1 - bad) =
      ⟨disk.read (headerLba sectors (1 - bad)) 1, some header,
        disk.read header.entries_lba header.entrySectors, none⟩ := by
    rw [Report.of_copies, survivor, intact.copy_eq]
  have found := @Report.of_copies Digest sha256 left sectors bad
  have made : Report.of sha256 left sectors = Report.make sha256 sectors (left.read 0 1)
      (Copy.of left 1 sectors) (Copy.of left (sectors - 1) sectors) := by rw [Report.of]
  have reason : (Report.of sha256 left sectors).mbr_reason = none := by
    rw [Report.of_reason, ← mbr, ← @Report.of_reason Digest sha256]
    exact damaged.mbr
  have verdict := @Report.make_verdict _ sha256 _ bad _ _ _ _ header made reason
    (by rw [good]; rfl) (by rw [good]) (by rw [found]; exact relation) (by
      intro old old_eq valid
      rw [found] at old_eq valid ⊢
      have counts := relation old old_eq
      simp only [related, Bool.and_eq_true, decide_eq_true_eq] at counts
      have bytes : old.entryBytes = header.entryBytes := by
        rw [Header.entryBytes, Header.entryBytes, counts.1.2, counts.2]
      rw [arrays old old_eq valid, good, bytes])
  rw [found] at verdict
  exact verdict

theorem targetLba_of_parsed {old : Header}
    (parsed : parseHeader (disk.read (headerLba sectors bad) 1) (headerLba sectors bad) sectors =
      .ok old) :
    (Copy.of disk (headerLba sectors bad) sectors).header = some old ∧
      targetLba disk sectors bad header = old.entries_lba := by
  have found : (Copy.of disk (headerLba sectors bad) sectors).header = some old := by
    by_cases supports : supported (disk.read (headerLba sectors bad) 1) old = true
    · rw [Copy.of_supported parsed supports]
    · rw [Copy.of_unsupported parsed supports]
  refine ⟨found, ?_⟩
  rw [targetLba, found]
  rfl

theorem withArray_read (disk : Disk) (sectors : Nat) (bad : Fin 2) (header : Header) :
    (withArray disk sectors bad header).read (targetLba disk sectors bad header) header.entrySectors =
      disk.read header.entries_lba header.entrySectors :=
  Disk.write_read disk _ (Disk.read_length _ _ _)

theorem Layout.array_read (layout : Layout disk sectors bad header) :
    (withHeader disk sectors bad header).read (targetLba disk sectors bad header)
      header.entrySectors = disk.read header.entries_lba header.entrySectors :=
  ((withHeader_sameBeside disk sectors bad header).sameOn layout.apart.2).read_eq.symm.trans
    (withArray_read disk sectors bad header)

theorem withArray_fresh (damaged : Damaged (Report.of sha256 disk sectors) bad)
    (intact : Intact disk (headerLba sectors (1 - bad)) sectors header)
    (layout : Layout disk sectors bad header) :
    (Report.of sha256 (withArray disk sectors bad header) sectors).status = .healthy ∨
      (Report.of sha256 (withArray disk sectors bad header) sectors).repairable = .ok bad := by
  have good : ((Report.of sha256 disk sectors).copies (1 - bad)).header = some header := by
    rw [Report.of_copies, intact.copy_eq]
  have sector := (layout.apart.2.sameOn (withArray_sameBeside disk sectors bad header)).read_eq
  have verdict := @Report.of_verdict _ sha256 disk (withArray disk sectors bad header) sectors bad
    header damaged intact layout.current fun place member => layout.withArray_same member
  have answer : ((Copy.of (withArray disk sectors bad header) (headerLba sectors bad) sectors).valid =
        true → (Report.of sha256 (withArray disk sectors bad header) sectors).status = .healthy) ∧
      ((Copy.of (withArray disk sectors bad header) (headerLba sectors bad) sectors).valid = false →
        (Report.of sha256 (withArray disk sectors bad header) sectors).repairable = .ok bad) := by
    cases parsed : parseHeader (disk.read (headerLba sectors bad) 1) (headerLba sectors bad) sectors with
    | error reason =>
      rw [sector] at parsed
      refine verdict ?_ ?_ <;>
        · intro old old_eq
          rw [Copy.of_unparsed parsed] at old_eq
          cases old_eq
    | ok old =>
      obtain ⟨old_header, target⟩ := @targetLba_of_parsed disk sectors bad header old parsed
      have relation : related old header = true :=
        damaged.relation old header (by rw [Report.of_copies, old_header]) good
      have counts := relation
      simp only [related, Bool.and_eq_true, decide_eq_true_eq] at counts
      have same_sectors : old.entrySectors = header.entrySectors := by
        rw [Header.entrySectors, Header.entrySectors, Header.entryBytes, Header.entryBytes,
          counts.1.2, counts.2]
      rw [sector] at parsed
      by_cases supports :
          supported ((withArray disk sectors bad header).read (headerLba sectors bad) 1) old = true
      · rw [Copy.of_supported parsed supports] at verdict ⊢
        refine verdict ?_ ?_
        · rintro _ ⟨⟩
          exact relation
        · rintro _ ⟨⟩ -
          dsimp only
          rw [← target, same_sectors, withArray_read]
      · rw [Copy.of_unsupported parsed supports] at verdict ⊢
        refine verdict ?_ ?_
        · rintro _ ⟨⟩
          exact relation
        · rintro _ ⟨⟩ ⟨⟩
  cases valid : (Copy.of (withArray disk sectors bad header) (headerLba sectors bad) sectors).valid with
  | true => exact .inl (answer.1 valid)
  | false => exact .inr (answer.2 valid)

theorem withHeader_intact (admitted : Admitted disk sectors bad header)
    (intact : Intact disk (headerLba sectors (1 - bad)) sectors header)
    (layout : Layout disk sectors bad header) (bounded : sectors < 256 ^ 8) :
    Intact (withHeader disk sectors bad header) (headerLba sectors bad) sectors
      { header with
        current_lba := headerLba sectors bad
        backup_lba := header.current_lba
        entries_lba := targetLba disk sectors bad header } := by
  have sector : (withHeader disk sectors bad header).read (headerLba sectors bad) 1 =
      repairedHeader disk sectors bad header :=
    Disk.write_read _ _ (repairedHeader_length disk sectors bad header)
  have sized : (disk.read (headerLba sectors (1 - bad)) 1).length = 512 := by
    rw [Disk.read_length]
    rfl
  have header_size : readLe 4 (repairedHeader disk sectors bad header) 12 =
      readLe 4 (disk.read (headerLba sectors (1 - bad)) 1) 12 := by
    rw [repairedHeader, otherCopy_eq]
    exact readLe_of_slice (slice_counterpart sized (by omega))
  refine ⟨?_, ?_, ?_⟩
  · rw [sector]
    exact admitted.repaired intact bounded
  · rw [sector, supported, header_size]
    exact intact.supports
  · rw [validateCopy_moved]
    rw [← intact.checked, ← layout.array_read]
    rfl

theorem withHeader_fresh (damaged : Damaged (Report.of sha256 disk sectors) bad)
    (admitted : Admitted disk sectors bad header)
    (intact : Intact disk (headerLba sectors (1 - bad)) sectors header)
    (layout : Layout disk sectors bad header) (bounded : sectors < 256 ^ 8) :
    (Report.of sha256 (withHeader disk sectors bad header) sectors).status = .healthy := by
  have repaired := withHeader_intact admitted intact layout bounded
  have verdict := @Report.of_verdict _ sha256 disk (withHeader disk sectors bad header) sectors bad
    header damaged intact layout.current fun place member => layout.withHeader_same member
  rw [repaired.copy_eq] at verdict
  refine (verdict ?_ ?_).1 rfl
  · rintro _ ⟨⟩
    simp [related]
  · rintro _ ⟨⟩ -
    exact layout.array_read

end Fresh

section Repair

variable {Digest : Type} {sha256 : Bytes → Digest} {disk : Disk} {device : BlockDevice}
  {bad : Fin 2} {header : Header} {report : Report Digest} {work : Nat}
  {outcome : Option (Except Fault Unit)} {after : BlockWorld}

/-- What a repair of the copy `bad` leaves behind, wherever it stops. -/
structure Repaired (sha256 : Bytes → Digest) (device : BlockDevice) (disk : Disk)
    (report : Report Digest) (bad : Fin 2) (header : Header) (outcome : Option (Except Fault Unit))
    (after : BlockWorld) : Prop where
  spared : ∀ write ∈ after.written, ∀ place ∈ sparedPlaces header,
    Apart write.1 write.2 place.1 place.2
  unchanged : ∀ place ∈ sparedPlaces header, disk.SameOn after.disk place.1 place.2
  fresh : ∃ fresh, Returns (Report.read sha256 device) after (.ok fresh) after ∧
    fresh.copies (1 - bad) = report.copies (1 - bad) ∧
    (fresh.status = .healthy ∨ fresh.repairable = .ok bad) ∧
    (outcome = some (.ok ()) → fresh.status = .healthy ∧
      ∀ copy, (fresh.copies copy).table = (report.copies (1 - bad)).table)

theorem RepairStage.repaired (stage : RepairStage disk device.sectors bad header after)
    (valid : device.validate = .ok ()) (large : 68 ≤ device.sectors)
    (damaged : Damaged (Report.of sha256 disk device.sectors) bad)
    (intact : Intact disk (headerLba device.sectors (1 - bad)) device.sectors header)
    (finished : outcome = some (.ok ()) → Admitted disk device.sectors bad header ∧
      after.disk = withHeader disk device.sectors bad header) :
    Repaired sha256 device disk (Report.of sha256 disk device.sectors) bad header outcome after := by
  have bounded : device.sectors < 256 ^ 8 := by
    have limits := refuse_eq_ok.mp valid
    have top : (2 ^ 64 - 1) / sector_size < 256 ^ 8 := by decide
    omega
  have current : header.current_lba = headerLba device.sectors (1 - bad) :=
    (decode_of_parsed intact.parsed).2.current
  have unchanged : ∀ place ∈ sparedPlaces header, disk.SameOn after.disk place.1 place.2 := by
    intro place member
    cases stage with
    | untouched => exact .refl disk _ _
    | array admitted torn =>
      have layout := admitted.layout intact bounded large
      obtain rfl | rfl := torn
      · exact .refl _ _ _
      · exact layout.withArray_same member
    | published admitted torn =>
      have layout := admitted.layout intact bounded large
      obtain rfl | rfl := torn
      · exact layout.withArray_same member
      · exact layout.withHeader_same member
  have survivor : (Report.of sha256 after.disk device.sectors).copies (1 - bad) =
      (Report.of sha256 disk device.sectors).copies (1 - bad) := by
    rw [Report.of_copies, Report.of_copies, intact.same current unchanged]
  have same_side : (Report.of sha256 disk device.sectors).repairable = .ok bad := by
    unfold Report.of at damaged ⊢
    exact Report.make_repairable.mpr damaged
  refine ⟨?_, unchanged, Report.of sha256 after.disk device.sectors, Report.read_returns valid large _,
    survivor, ?_, ?_⟩
  · intro write written
    cases stage with
    | untouched => cases written
    | array admitted torn =>
      obtain rfl := List.mem_singleton.mp written
      exact (admitted.layout intact bounded large).apart.1.1
    | published admitted torn =>
      have layout := admitted.layout intact bounded large
      simp only [List.mem_cons, List.not_mem_nil, or_false] at written
      obtain rfl | rfl := written
      · exact layout.apart.1.1
      · exact layout.apart.1.2
  · cases stage with
    | untouched => exact .inr same_side
    | array admitted torn =>
      have layout := admitted.layout intact bounded large
      obtain rfl | rfl := torn
      · exact .inr same_side
      · exact withArray_fresh damaged intact layout
    | published admitted torn =>
      have layout := admitted.layout intact bounded large
      obtain rfl | rfl := torn
      · exact withArray_fresh damaged intact layout
      · exact .inl (withHeader_fresh damaged admitted intact layout bounded)
  · intro success
    obtain ⟨admitted, disk_eq⟩ := finished success
    have layout := admitted.layout intact bounded large
    refine ⟨disk_eq ▸ withHeader_fresh damaged admitted intact layout bounded, fun copy => ?_⟩
    obtain rfl | rfl : copy = bad ∨ copy = 1 - bad := by omega
    · have repaired := withHeader_intact admitted intact layout bounded
      rw [Report.of_copies, Report.of_copies, disk_eq, repaired.copy_eq, intact.copy_eq]
      simp only [Copy.table, Option.map_some]
      congr 2
      exact congrArg (List.take header.entryBytes) layout.array_read
    · rw [survivor]

variable [DecidableEq Digest]

/-- Repair never makes things worse: it writes neither the boot record nor the surviving copy nor
the usable range, and wherever it stops the surviving copy is what it was and a fresh report is
healthy or repairable from the same side; after a success both copies describe its table. -/
theorem repair_safe
    (inspected : Execution (blockDevice whole) (Report.read sha256 device).run ⟨disk, []⟩
      (some (.ok report)) ⟨disk, []⟩)
    (repairable : report.repairable = .ok bad)
    (execution : Execution (blockDevice whole) (report.repair sha256 device work).run ⟨disk, []⟩
      outcome after) :
    ∃ header, (report.copies (1 - bad)).header = some header ∧
      Repaired sha256 device disk report bad header outcome after := by
  have reading : Keeps (blockDevice whole) (fun _ => True)
      (fun report after => after = ⟨disk, []⟩ ∧ report = Report.of sha256 disk device.sectors ∧
        device.validate = .ok () ∧ 68 ≤ device.sectors)
      (Report.read sha256 device) ⟨disk, []⟩ := Report.read_keeps trivial
  obtain ⟨-, report_eq, valid, large⟩ := (reading.sound inspected).2 report rfl
  subst report_eq
  have damaged : Damaged (Report.of sha256 disk device.sectors) bad := by
    unfold Report.of at repairable ⊢
    exact Report.make_repairable.mp repairable
  have good := damaged.intact
  rw [Report.of_copies] at good
  obtain ⟨header, intact⟩ := Copy.valid_iff.mp good
  obtain ⟨stage, finished⟩ := (repair_keeps intact repairable).sound execution
  refine ⟨header, ?_, stage.repaired valid large damaged intact (finished ())⟩
  rw [Report.of_copies, intact.copy_eq]

end Repair

/-- A header of one empty entry but for its checksum. -/
def sampleFields : Bytes :=
  signature ++ leBytes 4 revision_1_0 ++ leBytes 4 92 ++ leBytes 8 0 ++ leBytes 8 1 ++ leBytes 8 67 ++
    leBytes 8 3 ++ leBytes 8 65 ++ leBytes 16 1 ++ leBytes 8 2 ++ leBytes 4 1 ++ leBytes 4 128 ++
    leBytes 4 (crc (List.replicate 128 0)) ++ List.replicate 420 0

/-- A header of one empty entry. -/
def sampleHeader : Bytes := put sampleFields 16 (leBytes 4 (crc (slice sampleFields 0 92)))

/-- A boot record that protects 67 sectors. -/
def sampleMbr : Bytes :=
  List.replicate 450 0 ++ [0xee] ++ List.replicate 3 0 ++ leBytes 4 1 ++ leBytes 4 67 ++
    List.replicate 48 0 ++ [0x55, 0xaa]

/-- A disk without its backup copy. -/
def damagedDisk : Disk := Disk.write (Disk.write (fun _ => 0) 0 sampleMbr) 1 sampleHeader

theorem sampleMbr_length : sampleMbr.length = sector_size * 1 := by
  simp only [sampleMbr, List.length_append, List.length_replicate, leBytes_length]
  rfl

theorem sampleHeader_length : sampleHeader.length = sector_size * 1 := by
  have fields : sampleFields.length = sector_size * 1 := by
    simp only [sampleFields, signature, List.length_append, List.length_replicate, leBytes_length]
    rfl
  rw [sampleHeader, put_length (by rw [fields, leBytes_length]; decide), fields]

theorem damagedDisk_read {lba count : Nat} (behind : 2 ≤ lba) :
    damagedDisk.read lba count = List.replicate (sector_size * count) 0 := by
  have first : Disk.SameBeside (fun _ => 0) (Disk.write (fun _ => 0) 0 sampleMbr) 0 1 :=
    Disk.write_sameBeside _ _ sampleMbr_length
  have second : Disk.SameBeside (Disk.write (fun _ => 0) 0 sampleMbr) damagedDisk 1 1 :=
    Disk.write_sameBeside _ _ sampleHeader_length
  have same : Disk.SameOn (fun _ => 0) damagedDisk lba count :=
    (first.sameOn (.inr (by omega))).trans (second.sameOn (.inr (by omega)))
  rw [← same.read_eq, Disk.read, List.map_const', List.length_range']

theorem damagedDisk_header : damagedDisk.read 1 1 = sampleHeader :=
  Disk.write_read _ _ sampleHeader_length

theorem damagedDisk_mbr : damagedDisk.read 0 1 = sampleMbr := by
  have first : (Disk.write (fun _ => 0) 0 sampleMbr).read 0 1 = sampleMbr :=
    Disk.write_read _ _ sampleMbr_length
  have second : Disk.SameBeside (Disk.write (fun _ => 0) 0 sampleMbr) damagedDisk 1 1 :=
    Disk.write_sameBeside _ _ sampleHeader_length
  exact (second.sameOn (.inl (by omega))).read_eq.symm.trans first

theorem damagedDisk_intact : Intact damagedDisk 1 68 (Header.decode sampleHeader) where
  parsed := by
    rw [damagedDisk_header]
    decide +kernel
  supports := by
    rw [damagedDisk_header]
    decide
  checked := by
    have entries : (Header.decode sampleHeader).entries_lba = 2 ∧
        (Header.decode sampleHeader).entrySectors = 1 := by decide
    rw [entries.1, entries.2, damagedDisk_read le_rfl]
    decide +kernel

theorem damagedDisk_repairable :
    (Report.of (fun _ => ()) damagedDisk 68).repairable = .ok 1 := by
  have blank : parseHeader (damagedDisk.read 67 1) 67 68 = .error .BadSignature := by
    rw [damagedDisk_read (by omega)]
    decide +kernel
  have primary := damagedDisk_intact.copy_eq
  have backup := Copy.of_unparsed blank
  have reason : faultOf (checkMbr (damagedDisk.read 0 1) 68) = none := by
    rw [damagedDisk_mbr]
    decide +kernel
  unfold Report.of
  rw [primary, backup]
  exact Report.make_repairable.mpr ⟨reason, rfl, rfl, nofun⟩

theorem repair_safe_sample :
    ∃ header, ((Report.of (fun _ => ()) damagedDisk 68).copies (1 - 1)).header = some header ∧
      Repaired (fun _ => ()) ⟨68, 512, true⟩ damagedDisk (Report.of (fun _ => ()) damagedDisk 68) 1
        header
        (some (((Report.of (fun _ => ()) damagedDisk 68).repair (fun _ => ()) ⟨68, 512, true⟩
          512).run.run idealDisk ⟨damagedDisk, []⟩).1)
        (((Report.of (fun _ => ()) damagedDisk 68).repair (fun _ => ()) ⟨68, 512, true⟩
          512).run.run idealDisk ⟨damagedDisk, []⟩).2 := by
  have inspected : Returns (Report.read (fun _ => ()) ⟨68, 512, true⟩) ⟨damagedDisk, []⟩
      (.ok (Report.of (fun _ => ()) damagedDisk 68)) ⟨damagedDisk, []⟩ :=
    Report.read_returns (by decide) le_rfl _
  exact repair_safe (inspected.execution whole) damagedDisk_repairable
    (Program.run_execution (idealDisk_device whole) _ _)

end R4OS.Gpt
