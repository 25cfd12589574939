import R4OS.Gpt.Repair

/-!
# Reports of a disk

What an inspection reports of a disk, when both copies are intact, and when one of them can be
repaired.
-/

namespace R4OS.Gpt

open Block Crash Text

@[irreducible] def Copy.of (disk : Disk) (lba sectors : Nat) : Copy :=
  match parseHeader (disk.read lba 1) lba sectors with
  | .error reason => ⟨disk.read lba 1, none, [], some reason⟩
  | .ok header =>
    if supported (disk.read lba 1) header then
      let array := disk.read header.entries_lba header.entrySectors
      ⟨disk.read lba 1, some header, array, faultOf (validateCopy header array sectors)⟩
    else ⟨disk.read lba 1, some header, [], some .GptLayoutUnsupported⟩

section Copies

variable {disk disk' : Disk} {lba sectors : Nat} {header : Header} {reason : Fault}

theorem Copy.of_unparsed (parsed : parseHeader (disk.read lba 1) lba sectors = .error reason) :
    Copy.of disk lba sectors = ⟨disk.read lba 1, none, [], some reason⟩ := by
  unfold Copy.of
  rw [parsed]

theorem Copy.of_unsupported (parsed : parseHeader (disk.read lba 1) lba sectors = .ok header)
    (supports : ¬supported (disk.read lba 1) header = true) :
    Copy.of disk lba sectors = ⟨disk.read lba 1, some header, [], some .GptLayoutUnsupported⟩ := by
  unfold Copy.of
  rw [parsed]
  exact if_neg supports

theorem Copy.of_supported (parsed : parseHeader (disk.read lba 1) lba sectors = .ok header)
    (supports : supported (disk.read lba 1) header = true) :
    Copy.of disk lba sectors =
      ⟨disk.read lba 1, some header, disk.read header.entries_lba header.entrySectors,
        faultOf (validateCopy header (disk.read header.entries_lba header.entrySectors) sectors)⟩ := by
  unfold Copy.of
  rw [parsed]
  exact if_pos supports

end Copies

section Reports

variable {Digest : Type} {sha256 : Bytes → Digest}
  {tears : Disk → Nat → Bytes → Disk → Prop} {always : BlockWorld → Prop} {world : BlockWorld}
  {device : BlockDevice}

@[irreducible] def Report.of (sha256 : Bytes → Digest) (disk : Disk) (sectors : Nat) : Report Digest :=
  Report.make sha256 sectors (disk.read 0 1) (Copy.of disk 1 sectors)
    (Copy.of disk (sectors - 1) sectors)

theorem readCopy_keeps (always_now : always world) (lba : Nat) :
    Keeps (blockDevice tears) always
      (fun copy after => after = world ∧ copy = Copy.of world.disk lba device.sectors)
      (readCopy device lba) world := by
  refine .bind_same (BlockDevice.read_keeps always_now) fun sector sector_eq => ?_
  subst sector_eq
  cases parsed : parseHeader (world.disk.read lba 1) lba device.sectors with
  | error reason =>
    rw [Copy.of_unparsed parsed]
    exact .pure always_now ⟨rfl, rfl⟩
  | ok header =>
    dsimp only
    split
    · next supports =>
        rw [Copy.of_supported parsed supports]
        refine .bind_same (BlockDevice.read_keeps always_now) fun array array_eq => ?_
        subst array_eq
        exact .pure always_now ⟨rfl, rfl⟩
    · next unsupported =>
        rw [Copy.of_unsupported parsed unsupported]
        exact .pure always_now ⟨rfl, rfl⟩

theorem readCopy_returns (valid : device.validate = .ok ()) {lba : Nat} (inside : lba < device.sectors)
    (world : BlockWorld) :
    Returns (readCopy device lba) world (.ok (Copy.of world.disk lba device.sectors)) world := by
  refine .bind (BlockDevice.read_returns valid one_pos inside world) ?_
  cases parsed : parseHeader (world.disk.read lba 1) lba device.sectors with
  | error reason =>
    rw [Copy.of_unparsed parsed]
    exact .pure _ world
  | ok header =>
    dsimp only
    split
    · next supports =>
        have sound := (parseHeader_eq_ok.mp parsed).2.2
        rw [Copy.of_supported parsed supports]
        exact .bind (BlockDevice.read_returns valid sound.entries.1 sound.entries.2 world)
          (.pure _ world)
    · next unsupported =>
        rw [Copy.of_unsupported parsed unsupported]
        exact .pure _ world

theorem Report.read_keeps (always_now : always world) :
    Keeps (blockDevice tears) always
      (fun report after => after = world ∧
        (report = Report.of sha256 world.disk device.sectors ∧
          device.validate = .ok () ∧ 68 ≤ device.sectors))
      (Report.read sha256 device) world := by
  refine .computed_bind always_now fun _ valid => ?_
  refine .require_bind always_now fun large => ?_
  refine .bind_same (BlockDevice.read_keeps always_now) fun mbr mbr_eq => ?_
  refine .bind_same (readCopy_keeps always_now 1) fun primary primary_eq => ?_
  refine .bind_same (readCopy_keeps always_now _) fun backup backup_eq => ?_
  refine .pure always_now ⟨rfl, ?_, valid, of_decide_eq_true large⟩
  rw [mbr_eq, primary_eq, backup_eq, Report.of]

theorem Report.read_returns (valid : device.validate = .ok ()) (large : 68 ≤ device.sectors)
    (world : BlockWorld) :
    Returns (Report.read sha256 device) world (.ok (Report.of sha256 world.disk device.sectors))
      world := by
  unfold Report.of
  refine .bind (.computed valid world) ?_
  refine .bind (.require (decide_eq_true large) world) ?_
  refine .bind (BlockDevice.read_returns valid one_pos (by omega) world) ?_
  refine .bind (readCopy_returns valid (by omega) world) ?_
  exact .bind (readCopy_returns valid (by omega) world) (.pure _ world)

end Reports

section Copies

variable {disk disk' : Disk} {lba sectors : Nat} {header : Header}

theorem Copy.of_congr (same_sector : disk.SameOn disk' lba 1)
    (same_array : ∀ header, parseHeader (disk.read lba 1) lba sectors = .ok header →
      disk.SameOn disk' header.entries_lba header.entrySectors) :
    Copy.of disk lba sectors = Copy.of disk' lba sectors := by
  have sector_eq := same_sector.read_eq
  cases parsed : parseHeader (disk.read lba 1) lba sectors with
  | error reason =>
    rw [Copy.of_unparsed parsed, Copy.of_unparsed (sector_eq ▸ parsed), sector_eq]
  | ok header =>
    have parsed' := parsed
    rw [sector_eq] at parsed'
    have array_eq := (same_array header parsed).read_eq
    by_cases supports : supported (disk.read lba 1) header = true
    · rw [Copy.of_supported parsed supports, Copy.of_supported parsed' (sector_eq ▸ supports),
        sector_eq, array_eq]
    · rw [Copy.of_unsupported parsed supports, Copy.of_unsupported parsed' (sector_eq ▸ supports),
        sector_eq]

/-- What an intact copy has. -/
structure Intact (disk : Disk) (lba sectors : Nat) (header : Header) : Prop where
  parsed : parseHeader (disk.read lba 1) lba sectors = .ok header
  supports : supported (disk.read lba 1) header = true
  checked : validateCopy header (disk.read header.entries_lba header.entrySectors) sectors = .ok ()

theorem faultOf_eq_none {result : Except Fault Unit} : faultOf result = none ↔ result = .ok () := by
  cases result <;> simp [faultOf]

theorem Intact.copy_eq (intact : Intact disk lba sectors header) :
    Copy.of disk lba sectors = ⟨disk.read lba 1, some header,
      disk.read header.entries_lba header.entrySectors, none⟩ := by
  rw [Copy.of_supported intact.parsed intact.supports, faultOf_eq_none.mpr intact.checked]

theorem Copy.valid_iff :
    (Copy.of disk lba sectors).valid = true ↔ ∃ header, Intact disk lba sectors header := by
  constructor
  · intro valid
    cases parsed : parseHeader (disk.read lba 1) lba sectors with
    | error reason =>
      rw [Copy.of_unparsed parsed] at valid
      cases valid
    | ok header =>
      by_cases supports : supported (disk.read lba 1) header = true
      · rw [Copy.of_supported parsed supports] at valid
        refine ⟨header, parsed, supports, faultOf_eq_none.mp ?_⟩
        simpa [Copy.valid] using valid
      · rw [Copy.of_unsupported parsed supports] at valid
        cases valid
  · rintro ⟨header, intact⟩
    rw [intact.copy_eq]
    rfl

end Copies

section Status

variable {Digest : Type} {sha256 : Bytes → Digest} {disk : Disk} {sectors : Nat} {bad : Fin 2}

variable {mbr_reason : Option Fault} {a b primary backup : Copy}

theorem related_comm (a b : Header) : related a b = related b a := by
  unfold related
  simp only [eq_comm]

theorem statusOf_primary_damaged :
    statusOf mbr_reason a b = .primary_damaged ↔
      mbr_reason = none ∧ a.valid = false ∧ b.valid = true ∧
        ∀ old header, a.header = some old → b.header = some header → related old header = true := by
  cases mbr_reason with
  | some fault => simp [statusOf]
  | none =>
    unfold statusOf
    split
    · simp_all
    split
    · simp_all
    split
    · split
      · simp_all
      · split
        · split <;> simp_all
        · split <;> simp_all
    · split <;> simp_all

theorem Copy.header_of_valid {copy : Copy} (valid : copy.valid = true) :
    ∃ header, copy.header = some header := by
  rw [Copy.valid, Bool.and_eq_true] at valid
  exact Option.isSome_iff_exists.mp valid.2

theorem statusOf_backup_damaged :
    statusOf mbr_reason a b = .backup_damaged ↔
      mbr_reason = none ∧ b.valid = false ∧ a.valid = true ∧
        ∀ old header, b.header = some old → a.header = some header → related header old = true := by
  cases mbr_reason with
  | some fault => simp [statusOf]
  | none =>
    unfold statusOf
    split
    · simp_all
    split
    · simp_all
    split
    · split
      · simp_all
      · split
        · split <;> simp_all
        · split <;> simp_all
    · next unpaired =>
        split
        · next a_valid =>
            obtain ⟨first, a_header⟩ := Copy.header_of_valid a_valid
            have b_damaged : b.valid = false := by
              by_contra b_valid
              obtain ⟨second, b_header⟩ := Copy.header_of_valid (Bool.not_eq_false _ ▸ b_valid)
              exact unpaired first second a_header b_header
            simp_all
        · simp_all

theorem statusOf_healthy {first second : Header}
    (reason : mbr_reason = none) (a_valid : a.valid = true) (b_valid : b.valid = true)
    (a_header : a.header = some first) (b_header : b.header = some second)
    (same : related first second = true)
    (arrays : a.array.take first.entryBytes = b.array.take second.entryBytes) :
    statusOf mbr_reason a b = .healthy := by
  simp [statusOf, reason, a_valid, b_valid, a_header, b_header, same, arrays]

/-- A report that names a damaged copy. -/
structure Damaged (report : Report Digest) (bad : Fin 2) : Prop where
  mbr : report.mbr_reason = none
  damaged : (report.copies bad).valid = false
  intact : (report.copies (1 - bad)).valid = true
  relation : ∀ old header, (report.copies bad).header = some old →
    (report.copies (1 - bad)).header = some header → related old header = true

/-- The other one of two copies. -/
abbrev otherCopy (copy : Fin 2) : Fin 2 := copy.rev

theorem otherCopy_eq (copy : Fin 2) : otherCopy copy = 1 - copy := by
  obtain rfl | rfl : copy = 0 ∨ copy = 1 := by omega
  · rfl
  · rfl

theorem Report.repairable_of_status {report : Report Digest} :
    report.repairable = .ok bad ↔
      report.status = if bad = 0 then .primary_damaged else .backup_damaged := by
  obtain rfl | rfl : bad = 0 ∨ bad = 1 := by omega
  · unfold Report.repairable
    split <;> simp_all
  · unfold Report.repairable
    split <;> simp_all

variable {mbr : Bytes}

theorem Report.make_copies (copy : Fin 2) :
    (Report.make sha256 sectors mbr primary backup).copies copy =
      if copy = 0 then primary else backup := by
  obtain rfl | rfl : copy = 0 ∨ copy = 1 := by omega
  · rfl
  · rfl

@[simp] theorem Report.make_sectors :
    (Report.make sha256 sectors mbr primary backup).sectors = sectors := rfl

theorem Report.of_sectors : (Report.of sha256 disk sectors).sectors = sectors := by
  rw [Report.of, Report.make_sectors]

/-- A report is repairable exactly when one copy is damaged and nothing contradicts the other. -/
theorem Report.make_repairable :
    (Report.make sha256 sectors mbr primary backup).repairable = .ok bad ↔
      Damaged (Report.make sha256 sectors mbr primary backup) bad := by
  rw [Report.repairable_of_status]
  obtain rfl | rfl : bad = 0 ∨ bad = 1 := by omega
  · refine (statusOf_primary_damaged).trans ?_
    exact ⟨fun ⟨mbr, damaged, intact, relation⟩ => ⟨mbr, damaged, intact, relation⟩,
      fun ⟨mbr, damaged, intact, relation⟩ => ⟨mbr, damaged, intact, relation⟩⟩
  · refine (statusOf_backup_damaged).trans ?_
    exact ⟨fun ⟨mbr, damaged, intact, relation⟩ => ⟨mbr, damaged, intact, fun old header olds headers =>
        (related_comm old header).trans (relation old header olds headers)⟩,
      fun ⟨mbr, damaged, intact, relation⟩ => ⟨mbr, damaged, intact, fun old header olds headers =>
        (related_comm header old).trans (relation old header olds headers)⟩⟩

theorem Report.make_verdict {primary backup : Copy} {report : Report Digest} {header : Header}
    (made : report = Report.make sha256 sectors mbr primary backup)
    (reason : report.mbr_reason = none) (intact : (report.copies (1 - bad)).valid = true)
    (good : (report.copies (1 - bad)).header = some header)
    (relation : ∀ old, (report.copies bad).header = some old → related old header = true)
    (arrays : ∀ old, (report.copies bad).header = some old → (report.copies bad).valid = true → (report.copies bad).array.take old.entryBytes = (report.copies (1 - bad)).array.take header.entryBytes) :
    ((report.copies bad).valid = true → report.status = .healthy) ∧
      ((report.copies bad).valid = false → report.repairable = .ok bad) := by
  constructor
  · intro valid
    obtain ⟨old, old_eq⟩ := Copy.header_of_valid valid
    have same := relation old old_eq
    have array := arrays old old_eq valid
    subst made
    obtain rfl | rfl : bad = 0 ∨ bad = 1 := by omega
    · exact statusOf_healthy reason valid intact old_eq good same array
    · exact statusOf_healthy reason intact valid good old_eq ((related_comm header old).trans same)
        array.symm
  · intro damaged
    subst made
    refine Report.make_repairable.mpr ⟨reason, damaged, intact, fun old found old_eq found_eq => ?_⟩
    obtain rfl := Option.some.inj (good.symm.trans found_eq)
    exact relation old old_eq

theorem Report.of_copies (copy : Fin 2) :
    (Report.of sha256 disk sectors).copies copy = Copy.of disk (headerLba sectors copy) sectors := by
  rw [Report.of, Report.make_copies, headerLba]
  split
  · rfl
  · rfl

end Status

end R4OS.Gpt
