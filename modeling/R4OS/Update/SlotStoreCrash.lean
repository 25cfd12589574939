import R4OS.Update.SlotStore

/-!
# Crash safety of the two-slot store

What every system call keeps, what a lookup and a write do to the slot files wherever they are cut,
and how the newest valid journal moves along any history of writes.
-/

namespace R4OS.Update

open Crash Text

section Calls

variable {working : Bool} {damage : SlotDisk → Fin 2 → Bytes → Bytes → Prop} {disk : SlotDisk}
  {slot : Fin 2}

def SlotFile.reports : SlotFile → FileLookup → Prop
  | .absent, status => status = .not_found
  | .file data, status => status = .found false data.length
  | .directory, status => ∃ size, status = .found true size

theorem SlotFile.describes.reports {file : SlotFile} {info : FileInfo}
    (describes : file.describes info) (found : info.found) :
    file.reports (.found info.is_dir info.size) := by
  cases file with
  | absent => exact absurd found describes
  | file data =>
    obtain ⟨-, is_dir, size⟩ := describes
    simp [SlotFile.reports, is_dir, size]
  | directory =>
    obtain ⟨-, is_dir⟩ := describes
    exact ⟨info.size, by rw [is_dir]⟩

theorem SlotFile.describes.not_found {file : SlotFile} {info : FileInfo}
    (describes : file.describes info) (missing : ¬info.found) : file.reports .not_found := by
  cases file with
  | absent => rfl
  | file data | directory => exact absurd describes.1 missing

/-- A slot lookup answers what stands there, or fails when the file system does. -/
theorem fileInfoStatus_ensures (attempts : Nat) :
    Ensures (slotDevice working damage) (fun after => after = disk)
      (fun status _ => (disk slot).reports status ∨ status = .io ∧ working = false)
      (fileInfoStatus (.slot slot) (attempts + 1)) disk := by
  induction attempts with
  | zero =>
    refine .perform_bind rfl fun info after transition => ?_
    obtain ⟨rfl, honest⟩ := transition
    split
    · rename_i found
      refine .pure rfl (.inl ?_)
      rcases honest with ⟨-, describes⟩ | ⟨negative, -⟩
      · exact describes.reports found
      · exact absurd found.1 (by omega)
    · rename_i missing
      refine .pure rfl ?_
      rcases honest with ⟨nonnegative, describes⟩ | ⟨negative, broken⟩
      · rw [if_neg (by omega)]
        exact .inl (describes.not_found missing)
      · rw [if_pos negative]
        exact .inr ⟨rfl, broken⟩
  | succ attempts induction =>
    refine .perform_bind rfl fun info after transition => ?_
    obtain ⟨rfl, honest⟩ := transition
    split
    · rename_i found
      refine .pure rfl (.inl ?_)
      rcases honest with ⟨-, describes⟩ | ⟨negative, -⟩
      · exact describes.reports found
      · exact absurd found.1 (by omega)
    · refine .perform_bind rfl fun _ after transition => ?_
      obtain rfl : after = _ := transition
      exact induction

theorem fileInfoStatus_directory_ensures (directory : UpdateDirectory) (attempts : Nat) :
    Ensures (slotDevice working damage) (fun after => after = disk)
      (fun status _ => working = true → ∃ size, status = .found true size)
      (fileInfoStatus (.directory directory) (attempts + 1)) disk := by
  induction attempts with
  | zero =>
    refine .perform_bind rfl fun info after transition => ?_
    obtain ⟨rfl, honest⟩ := transition
    split
    · refine .pure rfl fun works => ⟨info.size, ?_⟩
      rw [(honest works).2]
    · rename_i missing
      refine .pure rfl fun works => ?_
      exact absurd (honest works).1 missing
  | succ attempts induction =>
    refine .perform_bind rfl fun info after transition => ?_
    obtain ⟨rfl, honest⟩ := transition
    split
    · refine .pure rfl fun works => ⟨info.size, ?_⟩
      rw [(honest works).2]
    · refine .perform_bind rfl fun _ after transition => ?_
      obtain rfl : after = _ := transition
      exact induction

theorem ensureDirectory_ensures (directory : UpdateDirectory) :
    Ensures (slotDevice working damage) (fun after => after = disk)
      (fun ensured _ => working = true → ensured = true) (ensureDirectory directory) disk := by
  refine .perform_bind rfl fun created after transition => ?_
  obtain ⟨rfl, honest⟩ := transition
  split
  · rename_i refused
    exact .pure rfl fun works => absurd (honest works) (not_le.mpr refused)
  · refine .seq (fileInfoStatus_directory_ensures directory 2) ?_
    rintro status after rfl found
    cases status with
    | found is_dir size =>
      refine .pure rfl fun works => ?_
      obtain ⟨_, equality⟩ := found works
      exact (FileLookup.found.inj equality).1
    | not_found | io => exact .pure rfl fun works => nomatch found works

theorem ensureUpdateDirectories_ensures :
    Ensures (slotDevice working damage) (fun after => after = disk)
      (fun ensured _ => working = true → ensured = true) ensureUpdateDirectories disk := by
  refine .seq (ensureDirectory_ensures .update_root) ?_
  rintro root after rfl root_works
  cases root with
  | false => exact .pure rfl root_works
  | true =>
    refine .seq (ensureDirectory_ensures .default_inbox) ?_
    rintro inbox after rfl inbox_works
    cases inbox with
    | false => exact .pure rfl inbox_works
    | true => exact ensureDirectory_ensures .staged_root

/-- A chunk is a nonempty part of the window; a working file system delivers one. -/
theorem readChunk_ensures (offset length attempts : Nat) :
    Ensures (slotDevice working damage) (fun after => after = disk)
      (fun answer _ =>
        (∀ chunk, answer = some chunk → chunk ≠ [] ∧ chunk <+: (disk slot).window offset length) ∧
        (working = true → (disk slot).window offset length ≠ [] → answer ≠ none))
      (readChunk slot offset length (attempts + 1)) disk := by
  have short (chunk : Bytes) (honest : chunk <+: (disk slot).window offset length) :
      chunk.length ≤ length :=
    Nat.le_trans honest.length_le (by simp [SlotFile.window])
  induction attempts with
  | zero =>
    refine .perform_bind rfl fun chunk after transition => ?_
    obtain ⟨rfl, honest, works⟩ := transition
    split
    · rename_i arrived
      refine .pure rfl ⟨?_, fun _ _ => Option.some_ne_none _⟩
      rintro _ ⟨⟩
      exact ⟨arrived.1, honest⟩
    · rename_i missing
      refine .pure rfl ⟨fun _ => nofun, fun working_eq nonempty => ?_⟩
      have empty : chunk = [] := by
        by_contra nonempty_chunk
        exact missing ⟨nonempty_chunk, short chunk honest⟩
      exact absurd (works working_eq empty) nonempty
  | succ attempts induction =>
    refine .perform_bind rfl fun chunk after transition => ?_
    obtain ⟨rfl, honest, works⟩ := transition
    split
    · rename_i arrived
      refine .pure rfl ⟨?_, fun _ _ => Option.some_ne_none _⟩
      rintro _ ⟨⟩
      exact ⟨arrived.1, honest⟩
    · refine .perform_bind rfl fun _ after transition => ?_
      obtain rfl : after = _ := transition
      exact induction

structure ReadAnswer (working : Bool) (content : Bytes) (length : Nat) (answer : Option Bytes) :
    Prop where
  honest : ∀ data, answer = some data → data = content.take length ∧ length ≤ content.length
  works : working = true → length ≤ content.length → length ≤ 2 ^ 32 → answer ≠ none

theorem ReadAnswer.complete {content completed : Bytes} {length : Nat}
    (collected : completed = content.take completed.length) (inside : completed.length ≤ length)
    (reached : length ≤ completed.length) : ReadAnswer working content length (some completed) := by
  obtain rfl : length = completed.length := Nat.le_antisymm reached inside
  refine ⟨?_, fun _ _ _ => Option.some_ne_none _⟩
  rintro _ ⟨⟩
  have size := congrArg List.length collected
  rw [List.length_take] at size
  exact ⟨collected, by omega⟩

theorem take_append_chunk {content completed chunk : Bytes} {length : Nat}
    (collected : completed = content.take completed.length)
    (next : chunk <+: (content.drop completed.length).take length) :
    completed ++ chunk = content.take (completed ++ chunk).length := by
  have chunk_eq : chunk = (content.drop completed.length).take chunk.length :=
    List.prefix_iff_eq_take.mp (next.trans (List.take_prefix _ _))
  rw [List.length_append, List.take_add, ← collected, ← chunk_eq]

theorem readRounds_ensures (length rounds : Nat) (completed : Bytes)
    (collected : completed = (disk slot).content.take completed.length)
    (inside : completed.length ≤ length) (enough : length ≤ completed.length + rounds) :
    Ensures (slotDevice working damage) (fun after => after = disk)
      (fun answer _ => ReadAnswer working (disk slot).content length answer)
      (readRounds slot length rounds completed) disk := by
  induction rounds generalizing completed with
  | zero =>
    rw [readRounds, if_pos (by omega)]
    exact .pure rfl (.complete collected inside (by omega))
  | succ rounds induction =>
    rw [readRounds]
    split
    · rename_i reached
      exact .pure rfl (.complete collected inside reached)
    split
    · exact .pure rfl ⟨fun _ => nofun, fun _ _ _ => by omega⟩
    rename_i missing small
    refine .seq (readChunk_ensures completed.length _ 2) ?_
    rintro answer after rfl ⟨honest, works⟩
    cases answer with
    | none =>
      refine .pure rfl ⟨fun _ => nofun, fun working_eq whole _ => ?_⟩
      refine absurd rfl (works working_eq ?_)
      rw [SlotFile.window, ne_eq, List.take_eq_nil_iff, List.drop_eq_nil_iff]
      omega
    | some chunk =>
      obtain ⟨nonempty, next⟩ := honest chunk rfl
      have chunk_length : chunk.length ≤ length - completed.length :=
        Nat.le_trans next.length_le (by simp [SlotFile.window])
      have chunk_pos : 0 < chunk.length := List.length_pos_of_ne_nil nonempty
      have longer : (completed ++ chunk).length = completed.length + chunk.length :=
        List.length_append
      exact induction (completed ++ chunk) (take_append_chunk collected next) (by omega)
        (by omega)

/-- A read of the beginning of a slot file is exact, and succeeds on a working file system. -/
theorem readExactAt_ensures (length : Nat) :
    Ensures (slotDevice working damage) (fun after => after = disk)
      (fun answer _ => ReadAnswer working (disk slot).content length answer)
      (readExactAt slot length) disk :=
  readRounds_ensures length length [] rfl (Nat.zero_le _) (Nat.le_add_left _ _)

end Calls

section Newest

variable {Journal : Type} {format : JournalFormat Journal} {disk : SlotDisk} {slot : Fin 2}
  {journal : Journal}

theorem scan_journal_eq_some (lawful : LawfulFormat format) {file : SlotFile} :
    (file.scan format slot).journal = some journal ↔
      ∃ data, file = .file data ∧ format.parseJournalInto data slot = some journal := by
  constructor
  · intro parsed
    cases file with
    | absent | directory => cases parsed
    | file data =>
      rw [SlotFile.scan] at parsed
      split at parsed
      · cases parsed
      · exact ⟨data, rfl, parsed⟩
  · rintro ⟨data, rfl, parsed⟩
    obtain ⟨nonempty, room⟩ := lawful.parse_size data slot journal parsed
    rw [SlotFile.scan, if_neg (by simp [nonempty, room])]
    exact parsed

theorem scan_data {file : SlotFile} (parsed : (file.scan format slot).journal = some journal) :
    format.parseJournalInto (file.scan format slot).data slot = some journal := by
  cases file with
  | absent | directory => cases parsed
  | file data =>
    rw [SlotFile.scan] at parsed ⊢
    split at parsed
    · cases parsed
    · rw [if_neg ‹_›]
      exact parsed

theorem scan_present (file : SlotFile) :
    (file.scan format slot).present = false ↔ file = .absent := by
  cases file with
  | absent | directory => simp [SlotFile.scan]
  | file data =>
    rw [SlotFile.scan]
    split <;> simp

theorem scan_valid_present {file : SlotFile}
    (valid : (file.scan format slot).journal.isSome = true) :
    (file.scan format slot).present = true := by
  rw [← Bool.not_eq_false, scan_present]
  rintro rfl
  cases valid

theorem holds_iff (lawful : LawfulFormat format) :
    Holds format disk slot journal ↔ ((disk slot).scan format slot).journal = some journal :=
  (scan_journal_eq_some lawful).symm

theorem scan_generation {file : SlotFile} (parsed : (file.scan format slot).journal = some journal) :
    (file.scan format slot).generation format = format.journal_generation journal := by
  simp [SlotScan.generation, parsed]

theorem newest_found (lawful : LawfulFormat format) (found : newest format disk = .found journal) :
    ∃ slot : Fin 2, format.slot journal = slot ∧ Holds format disk slot journal ∧
      ∀ other older, Holds format disk other older →
        format.journal_generation older ≤ format.journal_generation journal := by
  unfold newest newestScanned at found
  split at found
  · rename_i slot selected
    obtain ⟨valid, maximal⟩ := lawful.select_selected _ _ _ slot
      (fun _ valid => scan_valid_present valid) selected
    obtain ⟨held, parsed⟩ := Option.isSome_iff_exists.mp valid
    rw [scan_data parsed] at found
    obtain rfl : held = journal := JournalLookup.found.inj found
    refine ⟨slot, lawful.parse_slot _ _ _ (scan_data parsed), (holds_iff lawful).mpr parsed, ?_⟩
    intro other older holds
    have other_parsed := (holds_iff lawful).mp holds
    have order := maximal other (by rw [other_parsed]; rfl)
    rwa [scan_generation parsed, scan_generation other_parsed] at order
  · cases found
  · cases found

theorem newest_of_holds (lawful : LawfulFormat format) (holds : Holds format disk slot journal)
    (newer : ∀ other older, other ≠ slot → Holds format disk other older →
      format.journal_generation older < format.journal_generation journal) :
    newest format disk = .found journal := by
  have parsed := (holds_iff lawful).mp holds
  have selected := lawful.select_newest (fun slot => ((disk slot).scan format slot).present)
    (fun slot => ((disk slot).scan format slot).journal.isSome)
    (fun slot => ((disk slot).scan format slot).generation format) slot
    (fun _ valid => scan_valid_present valid) (by rw [parsed]; rfl) (by
      intro other distinct valid
      obtain ⟨older, other_parsed⟩ := Option.isSome_iff_exists.mp valid
      rw [scan_generation parsed, scan_generation other_parsed]
      exact newer other older distinct ((holds_iff lawful).mpr other_parsed))
  unfold newest newestScanned
  rw [selected]
  simp [scan_data parsed]

/-- Nothing is found exactly when no slot file exists. -/
theorem newest_not_found (lawful : LawfulFormat format) :
    newest format disk = .not_found ↔ ∀ slot, disk slot = .absent := by
  have empty := lawful.select_not_found (fun slot => ((disk slot).scan format slot).present)
    (fun slot => ((disk slot).scan format slot).journal.isSome)
    (fun slot => ((disk slot).scan format slot).generation format)
    (fun _ valid => scan_valid_present valid)
  simp only [scan_present] at empty
  rw [← empty]
  unfold newest newestScanned
  constructor
  · intro nothing
    split at nothing
    · split at nothing <;> cases nothing
    · assumption
    · cases nothing
  · intro nothing
    rw [nothing]

theorem inactiveSlot_ne (active : format.slot journal = slot) :
    inactiveSlot format journal ≠ slot := by
  rw [inactiveSlot, active]
  clear active
  revert slot
  decide

theorem eq_inactiveSlot {other : Fin 2} (active : format.slot journal = slot)
    (distinct : other ≠ slot) : other = inactiveSlot format journal := by
  rw [inactiveSlot, active]
  clear active
  revert other slot
  decide

theorem write_other {other : Fin 2} (distinct : other ≠ slot) (data : Bytes) :
    disk.write slot data other = disk other := by
  unfold SlotDisk.write
  split
  · rfl
  · exact Function.update_of_ne distinct _ _

theorem write_same (usable : disk slot ≠ .directory) (data : Bytes) :
    disk.write slot data slot = .file data := by
  rw [SlotDisk.write, if_neg usable, Function.update_self]

theorem write_directory (blocked : disk slot = .directory) (data : Bytes) :
    disk.write slot data = disk := if_pos blocked

theorem holds_write_other {other : Fin 2} {data : Bytes} (distinct : other ≠ slot) :
    Holds format (disk.write slot data) other journal ↔ Holds format disk other journal := by
  simp [Holds, write_other distinct]

theorem holds_write_same {data : Bytes} (usable : disk slot ≠ .directory) :
    Holds format (disk.write slot data) slot journal ↔
      format.parseJournalInto data slot = some journal := by
  simp [Holds, write_same usable]

theorem newest_write_newer (lawful : LawfulFormat format) {data : Bytes}
    (usable : disk slot ≠ .directory) (parsed : format.parseJournalInto data slot = some journal)
    (newer : ∀ other older, other ≠ slot → Holds format disk other older →
      format.journal_generation older < format.journal_generation journal) :
    newest format (disk.write slot data) = .found journal := by
  refine newest_of_holds lawful ((holds_write_same usable).mpr parsed) ?_
  intro other older distinct holds
  exact newer other older distinct ((holds_write_other distinct).mp holds)

theorem newest_write_rejected (lawful : LawfulFormat format)
    (found : newest format disk = .found journal) {data : Bytes}
    (rejected : format.parseJournalInto data (inactiveSlot format journal) = none) :
    newest format (disk.write (inactiveSlot format journal) data) = .found journal := by
  obtain ⟨slot, active, holds, -⟩ := newest_found lawful found
  have distinct := inactiveSlot_ne active
  by_cases blocked : disk (inactiveSlot format journal) = .directory
  · rwa [write_directory blocked]
  · refine newest_of_holds lawful ((holds_write_other distinct.symm).mpr holds) ?_
    intro other older other_ne other_holds
    obtain rfl := eq_inactiveSlot active other_ne
    rw [holds_write_same blocked, rejected] at other_holds
    cases other_holds

theorem lt_next_generation {generation : UInt64}
    (below : generation ≠ UInt64.ofNat (2 ^ 64 - 1)) : generation < generation + 1 := by
  have small := generation.toNat_lt
  have distinct : generation.toNat ≠ 2 ^ 64 - 1 := fun equality => below (by
    rw [← equality, UInt64.ofNat_toNat])
  rw [UInt64.lt_iff_toNat_lt, UInt64.toNat_add]
  have one : (1 : UInt64).toNat = 1 := rfl
  omega

theorem holds_lt_next (lawful : LawfulFormat format) {place : Fin 2 × UInt64}
    (next : nextStamp format disk = some place) (holds : Holds format disk slot journal) :
    format.journal_generation journal < place.2 := by
  unfold nextStamp at next
  split at next
  · cases next
  · rename_i empty
    obtain ⟨data, present, -⟩ := holds
    rw [(newest_not_found lawful).mp empty slot] at present
    cases present
  · rename_i last found
    split at next
    · cases next
    · rename_i below
      cases next
      obtain ⟨-, -, -, maximal⟩ := newest_found lawful found
      exact UInt64.lt_of_le_of_lt (maximal slot journal holds) (lt_next_generation below)

theorem newest_write_next (lawful : LawfulFormat format) {place : Fin 2 × UInt64}
    (next : nextStamp format disk = some place) {data : Bytes}
    (usable : disk place.1 ≠ .directory)
    (parsed : format.parseJournalInto data place.1 = some journal)
    (generation : format.journal_generation journal = place.2) :
    newest format (disk.write place.1 data) = .found journal := by
  refine newest_write_newer lawful usable parsed ?_
  intro other older _ holds
  rw [generation]
  exact holds_lt_next lawful next holds

end Newest

section Operations

variable {Journal : Type} {format : JournalFormat Journal} {working : Bool}
  {damage : SlotDisk → Fin 2 → Bytes → Bytes → Prop} {disk : SlotDisk} {slot : Fin 2}

theorem scanSlot_ensures (small : format.journal_max ≤ 2 ^ 32) :
    Ensures (slotDevice working damage) (fun after => after = disk)
      (fun answer _ =>
        answer = some ((disk slot).scan format slot) ∨ answer = none ∧ working = false)
      (scanSlot format slot) disk := by
  refine .seq (fileInfoStatus_ensures 2) ?_
  rintro status after rfl (reports | ⟨rfl, broken⟩)
  · cases file : after slot with
    | absent =>
      rw [file] at reports
      subst reports
      exact .pure rfl (.inl rfl)
    | directory =>
      rw [file] at reports
      obtain ⟨size, rfl⟩ := reports
      exact .pure rfl (.inl rfl)
    | file data =>
      rw [file] at reports
      subst reports
      have content : (after slot).content = data := by rw [file]; rfl
      by_cases refused : data = [] ∨ format.journal_max < data.length
      · have condition : (false = true) ∨ data.length = 0 ∨ format.journal_max < data.length := by
          simpa using refused
        have scanned : (SlotFile.file data).scan format slot = { present := true } :=
          if_pos refused
        simp only [condition, if_true, scanned]
        exact .pure rfl (.inl rfl)
      · have condition : ¬((false = true) ∨ data.length = 0 ∨ format.journal_max < data.length) := by
          simpa using refused
        have scanned : (SlotFile.file data).scan format slot =
            { present := true, data, journal := format.parseJournalInto data slot } :=
          if_neg refused
        simp only [condition, if_false, scanned]
        refine .seq (readExactAt_ensures data.length) ?_
        rintro answer _ rfl ⟨honest, works⟩
        rw [content] at honest works
        cases answer with
        | none =>
          refine .pure rfl (.inr ⟨rfl, ?_⟩)
          by_contra healthy
          have room : data.length ≤ 2 ^ 32 := by
            push Not at refused
            omega
          exact works (by simpa using healthy) .refl room rfl
        | some bytes =>
          obtain ⟨rfl, -⟩ := honest bytes rfl
          rw [List.take_length]
          exact .pure rfl (.inl rfl)
  · exact .pure rfl (.inr ⟨rfl, broken⟩)

/-- A lookup answers the newest valid journal, or fails when the file system does. -/
theorem readNewestValid_ensures (small : format.journal_max ≤ 2 ^ 32) :
    Ensures (slotDevice working damage) (fun after => after = disk)
      (fun answer _ => answer = newest format disk ∨ answer = .io ∧ working = false)
      (readNewestValid format) disk := by
  refine .seq (scanSlot_ensures small) ?_
  rintro first after rfl (rfl | ⟨rfl, broken⟩)
  · refine .seq (scanSlot_ensures small) ?_
    rintro second _ rfl (rfl | ⟨rfl, broken⟩)
    · refine .pure rfl (.inl ?_)
      refine congrArg (newestScanned format) (funext fun slot => ?_)
      match slot with
      | 0 | 1 => rfl
    · exact .pure rfl (.inr ⟨rfl, broken⟩)
  · exact .pure rfl (.inr ⟨rfl, broken⟩)

/-- The disks that a write of a stamped journal may leave wherever it is cut. -/
def Written (format : JournalFormat Journal) (damage : SlotDisk → Fin 2 → Bytes → Bytes → Prop)
    (disk : SlotDisk) (stamped : Journal) (slot : Fin 2) (after : SlotDisk) : Prop :=
  after = disk ∨ ∃ encoded left,
    format.serializeJournal stamped format.journal_max = some encoded ∧
      (left = encoded ∨ damage disk slot encoded left) ∧ after = disk.write slot left

/-- What a completed write answers. -/
structure WriteAnswer (format : JournalFormat Journal) (working : Bool) (disk : SlotDisk)
    (journal stamped : Journal) (slot : Fin 2) (answer : Bool × Journal) (after : SlotDisk) :
    Prop where
  refused : answer.1 = false → answer.2 = journal
  durable : answer.1 = true → answer.2 = stamped ∧ ∃ encoded verified,
    format.serializeJournal stamped format.journal_max = some encoded ∧
      encoded <+: (after slot).content ∧ format.parseJournalInto encoded slot = some verified
  works : working = true → disk slot ≠ .directory → ∀ encoded verified,
    format.serializeJournal stamped format.journal_max = some encoded →
      format.parseJournalInto encoded slot = some verified →
        format.confirms verified stamped = true → answer.1 = true ∧ after = disk.write slot encoded

theorem writeSlot_ensures (lawful : LawfulFormat format) (journal : Journal)
    (next_generation : UInt64) :
    Ensures (slotDevice working damage)
      (Written format damage disk (format.stamp journal slot next_generation) slot)
      (WriteAnswer format working disk journal (format.stamp journal slot next_generation) slot)
      (writeSlot format journal slot next_generation) disk := by
  simp only [writeSlot]
  generalize format.stamp journal slot next_generation = stamped
  cases serialized : format.serializeJournal stamped format.journal_max with
  | none =>
    refine .pure (.inl rfl) ⟨fun _ => rfl, fun refused => (nomatch refused), ?_⟩
    intro _ _ encoded _ equality
    rw [serialized] at equality
    cases equality
  | some encoded =>
    refine .perform_bind (.inl rfl) fun _ after transition => ?_
    have written : Written format damage disk stamped slot after := by
      rcases transition with complete | ⟨-, kept | ⟨left, damaged, changed⟩⟩
      · exact .inr ⟨encoded, encoded, serialized, .inl rfl, complete⟩
      · exact .inl kept
      · exact .inr ⟨encoded, left, serialized, .inr damaged, changed⟩
    have reading : Ensures (slotDevice working damage) (Written format damage disk stamped slot)
        (fun answer reached =>
          reached = after ∧ ReadAnswer working (after slot).content encoded.length answer)
        (readExactAt slot encoded.length) after :=
      (readExactAt_ensures encoded.length).mono (fun _ same => same ▸ written)
        fun _ _ same answers => ⟨same, answers⟩
    have healthy (works : working = true) : after = disk.write slot encoded := by
      rcases transition with complete | ⟨broken, -⟩
      · exact complete
      · rw [works] at broken
        cases broken
    have content (works : working = true) (usable : disk slot ≠ .directory) :
        (after slot).content = encoded := by
      rw [healthy works, write_same usable]
      rfl
    refine .seq reading ?_
    rintro answer reached - ⟨reached_eq, honest, works⟩
    rw [reached_eq]
    have failed (reason : working = true → disk slot ≠ .directory → ∀ verified,
        format.parseJournalInto encoded slot = some verified →
          format.confirms verified stamped = false) :
        Ensures (slotDevice working damage) (Written format damage disk stamped slot)
          (WriteAnswer format working disk journal stamped slot)
          (pure (false, journal)) after := by
      refine .pure written ⟨fun _ => rfl, fun refused => (nomatch refused), ?_⟩
      intro working_eq usable other verified other_serialized parsed confirmed
      obtain rfl : encoded = other := Option.some.inj (serialized.symm.trans other_serialized)
      rw [reason working_eq usable verified parsed] at confirmed
      cases confirmed
    cases answer with
    | none =>
      refine failed fun working_eq usable verified parsed => ?_
      have room := Nat.le_trans (lawful.serialize_size _ _ _ serialized).2 lawful.small
      exact absurd rfl (works working_eq (by rw [content working_eq usable]) room)
    | some readback =>
      obtain ⟨rfl, whole⟩ := honest readback rfl
      by_cases same : (after slot).content.take encoded.length = encoded
      · rw [same]
        simp only [ne_eq, not_true_eq_false, if_false]
        cases parsed : format.parseJournalInto encoded slot with
        | none =>
          refine failed fun _ _ verified found => ?_
          rw [parsed] at found
          cases found
        | some verified =>
          simp only []
          split
          · rename_i confirmed
            refine .pure written ⟨fun impossible => (nomatch impossible), fun _ => ?_, ?_⟩
            · exact ⟨rfl, encoded, verified, serialized,
                List.prefix_iff_eq_take.mpr same.symm, parsed⟩
            · intro working_eq usable other _ other_serialized _ _
              obtain rfl : encoded = other :=
                Option.some.inj (serialized.symm.trans other_serialized)
              exact ⟨rfl, healthy working_eq⟩
          · rename_i denied
            refine failed fun _ _ other found => ?_
            obtain rfl : verified = other := Option.some.inj (parsed.symm.trans found)
            simpa using denied
      · simp only [ne_eq, same, not_false_eq_true, if_true]
        refine failed fun working_eq usable _ _ => ?_
        rw [content working_eq usable, List.take_length] at same
        exact absurd rfl same

/-- The disks that a call with a journal may leave wherever it is cut. -/
def Reached (format : JournalFormat Journal) (damage : SlotDisk → Fin 2 → Bytes → Bytes → Prop)
    (disk : SlotDisk) (journal : Journal) (after : SlotDisk) : Prop :=
  after = disk ∨ ∃ place, nextStamp format disk = some place ∧
    Written format damage disk (format.stamp journal place.1 place.2) place.1 after

/-- A call either refuses, which a working file system makes it do only without a next stamp, or
writes under the next stamp. -/
def StoreAnswer (format : JournalFormat Journal) (working : Bool) (disk : SlotDisk)
    (journal : Journal) (answer : Bool × Journal) (after : SlotDisk) : Prop :=
  answer = (false, journal) ∧ (working = true → nextStamp format disk = none) ∨
    ∃ place, nextStamp format disk = some place ∧
      WriteAnswer format working disk journal (format.stamp journal place.1 place.2) place.1 answer
        after

theorem writeInactive_ensures (lawful : LawfulFormat format) (journal : Journal) :
    Ensures (slotDevice working damage) (Reached format damage disk journal)
      (StoreAnswer format working disk journal) (writeInactive format journal) disk := by
  have unchanged {after : SlotDisk} (same : after = disk) :
      Reached format damage disk journal after := .inl same
  have refused (reason : working = true → nextStamp format disk = none) :
      Ensures (slotDevice working damage) (Reached format damage disk journal)
        (StoreAnswer format working disk journal) (pure (false, journal)) disk :=
    Ensures.pure (.inl rfl) (.inl ⟨rfl, reason⟩)
  have written (place : Fin 2 × UInt64) (next : nextStamp format disk = some place) :
      Ensures (slotDevice working damage) (Reached format damage disk journal)
        (StoreAnswer format working disk journal) (writeSlot format journal place.1 place.2) disk :=
    (writeSlot_ensures lawful journal place.2).mono
      (fun _ reached => .inr ⟨place, next, reached⟩) fun _ _ _ answers => .inr ⟨place, next, answers⟩
  have directories : Ensures (slotDevice working damage) (Reached format damage disk journal)
      (fun ensured after => after = disk ∧ (working = true → ensured = true))
      ensureUpdateDirectories disk :=
    ensureUpdateDirectories_ensures.mono (fun _ same => unchanged same)
      fun _ _ same works => ⟨same, works⟩
  have lookup : Ensures (slotDevice working damage) (Reached format damage disk journal)
      (fun answer after =>
        after = disk ∧ (answer = newest format disk ∨ answer = .io ∧ working = false))
      (readNewestValid format) disk :=
    (readNewestValid_ensures lawful.small).mono (fun _ same => unchanged same)
      fun _ _ same answers => ⟨same, answers⟩
  refine .seq directories ?_
  rintro ensured reached - ⟨reached_eq, works⟩
  rw [reached_eq]
  cases ensured with
  | false => exact refused fun working_eq => (nomatch works working_eq)
  | true =>
    refine .seq lookup ?_
    rintro answer reached - ⟨reached_eq, rfl | ⟨rfl, broken⟩⟩
    · rw [reached_eq]
      cases found : newest format disk with
      | io => exact refused fun _ => by simp [nextStamp, found]
      | not_found => exact written (0, 1) (by simp [nextStamp, found])
      | found journal =>
        simp only []
        split
        · rename_i last
          exact refused fun _ => by simp [nextStamp, found, last]
        · rename_i below
          exact written (inactiveSlot format journal, format.journal_generation journal + 1)
            (by simp only [nextStamp, found, if_neg below])
    · rw [reached_eq]
      exact refused fun working_eq => by simp [broken] at working_eq

end Operations

end R4OS.Update
