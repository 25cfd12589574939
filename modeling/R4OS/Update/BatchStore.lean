import R4OS.Update.BatchRoundTrip
import R4OS.Update.JournalStore

/-!
# The batch journal in its slots

The two-slot store of batch journals, and the progress of both stores: once input and output work,
the next write succeeds on every store whose first write was not torn.
-/

namespace R4OS.Update
namespace Batch

open Crash Text

variable {generation : UInt64} {slot : Nat} {journal : BatchJournal}

def selectNewestSlot (present valid : Fin 2 → Bool) (generations : Fin 2 → UInt64) :
    SlotSelection :=
  if !present 0 && !present 1 then .not_found
  else if !valid 0 && !valid 1 then .invalid
  else if valid 0 && !valid 1 then .selected 0
  else if !valid 0 && valid 1 then .selected 1
  else .selected (if generations 0 < generations 1 then 1 else 0)

def batchFormat : JournalFormat BatchJournal where
  journal_max := journal_max
  serializeJournal := serializeJournal
  parseJournalInto := parseJournalInto
  selectNewestSlot := selectNewestSlot
  slot := BatchJournal.slot
  journal_generation := BatchJournal.journal_generation
  stamp journal slot generation :=
    { journal with slot := slot, journal_generation := generation, valid := true }
  confirms readback written :=
    readback.batch_generation == written.batch_generation &&
      readback.journal_generation == written.journal_generation &&
      readback.phase == written.phase && readback.package_count == written.package_count

def readNewestValidBatchInto : SlotProgram (JournalLookup BatchJournal) :=
  readNewestValid batchFormat

def writeInactiveBatchJournal (journal : BatchJournal) : SlotProgram (Bool × BatchJournal) :=
  writeInactive batchFormat journal

theorem branch {Result : Type} {condition : Prop} [Decidable condition] {first second result : Result}
    (chosen : (if condition then first else second) = result) : first = result ∨ second = result := by
  by_cases holds : condition
  · rw [if_pos holds] at chosen
    exact .inl chosen
  · rw [if_neg holds] at chosen
    exact .inr chosen

theorem once_kept {Value : Type} {seen value : Option Value} {set : Value → BatchScan}
    {next : BatchScan} (read : once seen value set = some next)
    (known : ∀ value, (set value).journal_generation = some generation) :
    next.journal_generation = some generation := by
  unfold once at read
  split at read
  · cases read
  · obtain ⟨value, -, rfl⟩ := Option.map_eq_some_iff.mp read
    exact known value

theorem parseLine_generation_kept {scan next : BatchScan} {line : Bytes}
    (read : parseLine scan line = some next) (known : scan.journal_generation = some generation) :
    next.journal_generation = some generation := by
  rw [parseLine] at read
  rcases branch read with read | read
  · cases read
    exact known
  rcases branch read with read | read
  · rcases branch read with read | read
    · cases read
    · cases read
      exact known
  rcases branch read with read | read
  · exact once_kept read fun _ => known
  rcases branch read with read | read
  · rw [known] at read
    cases read
  iterate 6
    rcases branch read with stop | read
    · exact once_kept stop fun _ => known
  rcases branch read with read | read
  · obtain ⟨_, -, rfl⟩ := Option.map_eq_some_iff.mp read
    exact known
  · cases read

theorem foldlM_generation_kept {texts : List Bytes} {scan final : BatchScan}
    (read : texts.foldlM parseLine scan = some final)
    (known : scan.journal_generation = some generation) :
    final.journal_generation = some generation := by
  induction texts generalizing scan with
  | nil => exact Option.some.inj read ▸ known
  | cons line texts induction =>
    rw [List.foldlM_cons] at read
    obtain ⟨next, step, rest⟩ := Option.bind_eq_some_iff.mp read
    exact induction rest (parseLine_generation_kept step known)

/-- What every parsed batch journal takes from its text. -/
theorem parseJournalInto_parts {data : Bytes} (parsed : parseJournalInto data slot = some journal) :
    data ≠ [] ∧ data.length ≤ journal_max ∧ journal.slot = slot ∧ ∃ checksum_start scan,
      lastLineStart data (ascii "CHECKSUM=") = some checksum_start ∧
        (((data.take checksum_start).splitOn newline).map trimLine).foldlM parseLine {} =
            some scan ∧
          scan.journal_generation = some journal.journal_generation := by
  unfold parseJournalInto at parsed
  obtain ⟨_, inside, parsed⟩ := bind_some parsed
  obtain ⟨checksum_start, start, parsed⟩ := bind_some parsed
  obtain ⟨_, -, parsed⟩ := bind_some parsed
  obtain ⟨_, -, parsed⟩ := bind_some parsed
  obtain ⟨scan, scanned, parsed⟩ := bind_some parsed
  obtain ⟨finished, finished_eq, parsed⟩ := bind_some parsed
  obtain ⟨_, -, parsed⟩ := bind_some parsed
  cases parsed
  have bounds : slot ≤ 1 ∧ data ≠ [] ∧ data.length ≤ journal_max := by
    by_contra outside
    rw [guard, if_neg outside] at inside
    cases inside
  unfold BatchScan.journal at finished_eq
  obtain ⟨_, -, finished_eq⟩ := bind_some finished_eq
  obtain ⟨_, -, finished_eq⟩ := bind_some finished_eq
  obtain ⟨generation, generation_eq, finished_eq⟩ := bind_some finished_eq
  iterate 7
    replace finished_eq := bind_some finished_eq
    obtain ⟨_, -, finished_eq⟩ := finished_eq
  cases finished_eq
  exact ⟨bounds.2.1, bounds.2.2, rfl, checksum_start, scan, start, scanned, generation_eq⟩

/-- The header lines up to the journal generation. -/
def leadingFields (journal : BatchJournal) : List (Bytes × Bytes) := (headerFields journal).take 3

theorem leadingLines_visible (journal : BatchJournal) :
    ∀ line ∈ (leadingFields journal).map keyed, Visible line := by
  have values : ∀ field ∈ leadingFields journal, Visible field.2 := by
    simp only [leadingFields, headerFields, List.take_succ_cons, List.take_zero,
      List.forall_mem_cons, List.not_mem_nil, false_imp_iff, implies_true, and_true]
    exact ⟨by decide, (decimal_fieldValue _).visible,
      (decimal_fieldValue _).visible⟩
  intro line member
  obtain ⟨field, field_mem, rfl⟩ := List.mem_map.mp member
  exact (headerFields_keys journal field (List.mem_of_mem_take field_mem)).visible.append
    (values field field_mem)

theorem foldlM_leadingLines (journal : BatchJournal) :
    ((leadingFields journal).map keyed).foldlM parseLine {} =
      some { saw_magic := true
             batch_generation := some journal.batch_generation
             journal_generation := some journal.journal_generation } := by
  simp [leadingFields, headerFields, keyed, parseLine_magic, parseLine_batch_generation, parseLine_journal_generation, once, parseU64_decimal]

theorem parseJournalInto_generation {readback : BatchJournal}
    (parsed : parseJournalInto (journalText journal) slot = some readback) :
    readback.journal_generation = journal.journal_generation := by
  obtain ⟨-, -, -, checksum_start, scan, start, scanned, generation⟩ := parseJournalInto_parts parsed
  rw [lastLineStart_text] at start
  cases start
  have body : (journalText journal).take (journalBody journal).length = journalBody journal :=
    List.take_left
  have visible := leadingLines_visible journal
  obtain ⟨rest, split⟩ : ∃ rest,
      journalBody journal = unlines ((leadingFields journal).map keyed) ++ rest := by
    rw [journalBody, bodyLines, ← List.take_append_drop 3 (headerFields journal), ← leadingFields,
      List.map_append, List.append_assoc, unlines_append]
    exact ⟨_, rfl⟩
  rw [body, split, splitOn_unlines_append fun line member => (visible line member).newline_not_mem,
    List.map_append, map_trimLine_visible visible, List.foldlM_append, foldlM_leadingLines,
    Option.bind_eq_bind, Option.bind_some] at scanned
  have kept := foldlM_generation_kept scanned rfl
  exact Option.some.inj (generation.symm.trans kept)

theorem serializeJournal_eq {capacity : Nat} {encoded : Bytes}
    (serialized : serializeJournal journal capacity = some encoded) :
    encoded = journalText journal ∧ encoded.length ≤ capacity := by
  obtain ⟨valid, ⟨⟩⟩ := Option.ite_none_right_eq_some.mp serialized
  exact ⟨rfl, valid.2⟩

theorem batchFormat_lawful : LawfulFormat batchFormat where
  small := by decide
  parse_slot _ _ _ parsed := (parseJournalInto_parts parsed).2.2.1
  parse_size _ _ _ parsed := ⟨(parseJournalInto_parts parsed).1, (parseJournalInto_parts parsed).2.1⟩
  serialize_size journal capacity encoded serialized := by
    obtain ⟨rfl, room⟩ := serializeJournal_eq serialized
    exact ⟨by simp [journalText], room⟩
  reads_generation journal slot generation capacity encoded readback serialized parsed := by
    obtain ⟨rfl, -⟩ := serializeJournal_eq serialized
    exact parseJournalInto_generation parsed
  select_not_found present valid generation sound := by
    rw [Fin.forall_fin_two] at sound ⊢
    change selectNewestSlot present valid generation = _ ↔ _
    unfold selectNewestSlot
    cases first : valid 0 <;> cases second : valid 1 <;> grind
  select_selected present valid generation slot sound selected := by
    rw [Fin.forall_fin_two] at sound ⊢
    change selectNewestSlot present valid generation = _ at selected
    unfold selectNewestSlot at selected
    cases first : valid 0 <;> cases second : valid 1 <;> grind
  select_newest present valid generation slot sound slot_valid newer := by
    rw [Fin.forall_fin_two] at sound newer
    change selectNewestSlot present valid generation = _
    revert slot
    rw [Fin.forall_fin_two]
    unfold selectNewestSlot
    cases first : valid 0 <;> cases second : valid 1 <;> grind

/-- A batch journal that can be stored: valid once stamped, with normal paths. -/
structure StorableBatch (journal : BatchJournal) : Prop where
  valid : journalValid (batchFormat.stamp journal 0 1) = true
  canonical : CanonicalBatch journal

theorem journalValid_stamp (inside : slot ≤ 1) (nonzero : generation ≠ 0)
    (valid : journalValid (batchFormat.stamp journal 0 1) = true) :
    journalValid (batchFormat.stamp journal slot generation) = true := by
  have entries : entryValid (batchFormat.stamp journal slot generation) =
      entryValid (batchFormat.stamp journal 0 1) := rfl
  have count : (batchFormat.stamp journal slot generation).package_count =
      (batchFormat.stamp journal 0 1).package_count := rfl
  unfold journalValid at valid ⊢
  rw [entries, count]
  simp only [Bool.and_eq_true, decide_eq_true_eq, bne_iff_ne] at valid ⊢
  simp only [batchFormat] at valid ⊢
  tauto

theorem StorableBatch.text (storable : StorableBatch journal)
    (slot : Fin 2) (generation : UInt64) (nonzero : generation ≠ 0) :
    batchFormat.serializeJournal (batchFormat.stamp journal slot generation)
          batchFormat.journal_max =
        some (journalText (batchFormat.stamp journal slot generation)) ∧
      batchFormat.parseJournalInto (journalText (batchFormat.stamp journal slot generation)) slot =
        some (batchFormat.stamp journal slot generation) := by
  have inside : slot.val ≤ 1 := Nat.le_of_lt_succ slot.isLt
  have valid := journalValid_stamp inside nonzero storable.valid
  have canonical : CanonicalBatch (batchFormat.stamp journal slot generation) := storable.canonical
  have room := journalText_length valid canonical
  exact ⟨if_pos ⟨valid, room⟩, parseJournalInto_journalText inside valid canonical room⟩

theorem sampleJournal_storable : StorableBatch sampleJournal where
  valid := by decide +kernel
  canonical := by
    intro entry member
    rw [List.mem_singleton.mp member]
    unfold NormalPath
    decide +kernel

end Batch
end R4OS.Update
