import R4OS.Update.JournalRestore
import R4OS.Update.RecoveryCrash
import R4OS.Update.SlotHistory

/-!
# The transaction journal in its slots

The two-slot store of transaction journals.  Its newest valid journal is always the last
acknowledged one or one that was issued after it.
-/

namespace R4OS.Update

open Crash Text

def selectNewestSlot (present valid : Fin 2 → Bool) (generation : Fin 2 → UInt64) :
    SlotSelection :=
  if valid 0 && !present 0 || valid 1 && !present 1 then .invalid
  else if valid 0 && valid 1 then
    if generation 0 = generation 1 then .invalid
    else .selected (if generation 1 < generation 0 then 0 else 1)
  else if valid 0 then .selected 0
  else if valid 1 then .selected 1
  else if present 0 || present 1 then .invalid
  else .not_found

def transactionFormat : JournalFormat TransactionJournal where
  journal_max := journal_max
  serializeJournal := serializeJournal
  parseJournalInto := parseJournalInto
  selectNewestSlot := selectNewestSlot
  slot := TransactionJournal.slot
  journal_generation := TransactionJournal.journal_generation
  stamp journal slot generation := journal.stamp ⟨slot, generation⟩
  confirms readback written :=
    readback.transaction_generation == written.transaction_generation &&
      readback.journal_generation == written.journal_generation && readback.phase == written.phase

def readNewestValidJournalInto : SlotProgram (JournalLookup TransactionJournal) :=
  readNewestValid transactionFormat

def writeInactiveJournal (journal : TransactionJournal) :
    SlotProgram (Bool × TransactionJournal) :=
  writeInactive transactionFormat journal

theorem bind_some {First Second : Type} {value : Option First} {next : First → Option Second}
    {result : Second} (bound : value >>= next = some result) :
    ∃ first, value = some first ∧ next first = some result :=
  Option.bind_eq_some_iff.mp bound

theorem parseHeader_parts {texts : List Bytes} {slot : Nat} {header : TransactionJournal}
    {payload_count component_count : Nat}
    (parsed : parseHeader texts slot = some (header, payload_count, component_count)) :
    header.slot = slot ∧ ∃ value,
      fieldValue texts (ascii "JOURNAL_GENERATION=") = some value ∧
        parseU64 value = some header.journal_generation := by
  unfold parseHeader at parsed
  iterate 6
    replace parsed := bind_some parsed
    obtain ⟨_, -, parsed⟩ := parsed
  obtain ⟨value, found, parsed⟩ := bind_some parsed
  obtain ⟨generation, generation_eq, parsed⟩ := bind_some parsed
  iterate 34
    replace parsed := bind_some parsed
    obtain ⟨_, -, parsed⟩ := parsed
  cases parsed
  exact ⟨rfl, value, found, generation_eq⟩

theorem parseJournalInto_parts {data : Bytes} {slot : Nat} {journal : TransactionJournal}
    (parsed : parseJournalInto data slot = some journal) :
    data ≠ [] ∧ data.length ≤ journal_max ∧ journal.slot = slot ∧ ∃ value,
      journalField data (ascii "JOURNAL_GENERATION=") = some value ∧
        parseU64 value = some journal.journal_generation := by
  unfold parseJournalInto at parsed
  obtain ⟨_, inside, parsed⟩ := bind_some parsed
  iterate 4
    replace parsed := bind_some parsed
    obtain ⟨_, -, parsed⟩ := parsed
  obtain ⟨⟨header, payload_count, component_count⟩, header_eq, parsed⟩ := bind_some parsed
  iterate 4
    replace parsed := bind_some parsed
    obtain ⟨_, -, parsed⟩ := parsed
  have header_parts := parseHeader_parts header_eq
  cases parsed
  have bounds : slot ≤ 1 ∧ data ≠ [] ∧ data.length ≤ journal_max := by
    by_contra outside
    rw [guard, if_neg outside] at inside
    cases inside
  exact ⟨bounds.2.1, bounds.2.2, header_parts⟩

/-- The header lines up to the journal generation. -/
def leadingFields (journal : TransactionJournal) : List (Bytes × Bytes) :=
  (headerFields journal).take 3

theorem leadingFields_safe (journal : TransactionJournal) :
    ∀ line ∈ (leadingFields journal).map keyed, SafeLine line := by
  have values : ∀ field ∈ leadingFields journal, HeaderValue field.2 := by
    simp only [leadingFields, headerFields, List.take_succ_cons, List.take_zero,
      List.forall_mem_cons, List.not_mem_nil, false_imp_iff, implies_true, and_true]
    exact ⟨⟨by decide, by decide⟩, decimal_headerValue _, decimal_headerValue _⟩
  intro line member
  obtain ⟨field, field_mem, rfl⟩ := List.mem_map.mp member
  exact keyed_safe (headerFields_keys journal field (List.mem_of_mem_take field_mem))
    (values field field_mem)

theorem generation_line (journal : TransactionJournal) :
    ascii "JOURNAL_GENERATION=" ++ decimal journal.journal_generation.toNat ∈
      (lines (journalText journal)).map trim := by
  have safe := leadingFields_safe journal
  obtain ⟨rest, text⟩ : ∃ rest,
      journalText journal = unlines ((leadingFields journal).map keyed) ++ rest := by
    rw [journalText, journalBody, bodyLines, ← List.take_append_drop 3 (headerFields journal),
      ← leadingFields, List.map_append, List.append_assoc, List.append_assoc, unlines_append,
      List.append_assoc]
    exact ⟨_, rfl⟩
  rw [text, lines_unlines_append fun line member => (safe line member).unbroken, List.map_append,
    map_trim_safe safe]
  have member : (ascii "JOURNAL_GENERATION=", decimal journal.journal_generation.toNat) ∈
      leadingFields journal := by
    simp [leadingFields, headerFields]
  have keyed_member := List.mem_map_of_mem (f := keyed) member
  exact List.mem_append_left _ keyed_member

theorem parseJournalInto_generation {journal readback : TransactionJournal} {slot : Nat}
    (parsed : parseJournalInto (journalText journal) slot = some readback) :
    readback.journal_generation = journal.journal_generation := by
  obtain ⟨-, -, -, value, found, generation⟩ := parseJournalInto_parts parsed
  have value_eq := fieldValue_unique (generation_line journal) found
  rw [value_eq, parseU64_decimal] at generation
  exact (Option.some.inj generation).symm

theorem serializeJournal_eq {journal : TransactionJournal} {capacity : Nat} {encoded : Bytes}
    (serialized : serializeJournal journal capacity = some encoded) :
    encoded = journalText journal ∧ encoded.length ≤ capacity := by
  obtain ⟨valid, ⟨⟩⟩ := Option.ite_none_right_eq_some.mp serialized
  exact ⟨rfl, valid.2⟩

theorem transactionFormat_lawful : LawfulFormat transactionFormat where
  small := by decide
  parse_slot _ _ _ parsed := (parseJournalInto_parts parsed).2.2.1
  parse_size _ _ _ parsed := ⟨(parseJournalInto_parts parsed).1, (parseJournalInto_parts parsed).2.1⟩
  serialize_size journal capacity encoded serialized := by
    obtain ⟨rfl, room⟩ := serializeJournal_eq serialized
    exact ⟨by simp [journalText], room⟩
  reads_generation journal slot generation capacity encoded readback serialized parsed := by
    obtain ⟨rfl, -⟩ := serializeJournal_eq serialized
    exact parseJournalInto_generation parsed
  select_not_found present valid generation sound := by
    rw [Fin.forall_fin_two] at sound ⊢
    change selectNewestSlot present valid generation = _ ↔ _
    unfold selectNewestSlot
    cases first : valid 0 <;> cases second : valid 1 <;> grind
  select_selected present valid generation slot sound selected := by
    rw [Fin.forall_fin_two] at sound ⊢
    change selectNewestSlot present valid generation = _ at selected
    unfold selectNewestSlot at selected
    cases first : valid 0 <;> cases second : valid 1 <;> grind
  select_newest present valid generation slot sound slot_valid newer := by
    rw [Fin.forall_fin_two] at sound newer
    change selectNewestSlot present valid generation = _
    revert slot
    rw [Fin.forall_fin_two]
    unfold selectNewestSlot
    cases first : valid 0 <;> cases second : valid 1 <;> grind

/-- A journal that can be stored: valid once stamped, with normal paths, and without a fingerprint
of an unknown old file. -/
structure Storable (journal : TransactionJournal) : Prop where
  valid : journalValid (journal.stamp ⟨0, 1⟩) = true
  canonical : CanonicalJournal journal
  old_zero : UnknownOldZero journal

theorem journalValid_stamp {journal : TransactionJournal} (stamp : Stamp) (inside : stamp.slot ≤ 1)
    (nonzero : stamp.journal_generation ≠ 0) (valid : journalValid (journal.stamp ⟨0, 1⟩) = true) :
    journalValid (journal.stamp stamp) = true := by
  have header : headerValid (journal.stamp stamp) = true := by
    have former := (validParts valid).header
    simp only [headerValid, Bool.and_eq_true, decide_eq_true_eq, bne_iff_ne] at former ⊢
    simp only [TransactionJournal.stamp] at former ⊢
    tauto
  have rest := valid
  unfold journalValid at rest ⊢
  rw [header]
  rw [(validParts valid).header] at rest
  exact rest

theorem Storable.text {journal : TransactionJournal} (storable : Storable journal) (slot : Fin 2)
    (generation : UInt64) (nonzero : generation ≠ 0) :
    transactionFormat.serializeJournal (transactionFormat.stamp journal slot generation)
          transactionFormat.journal_max =
        some (journalText (journal.stamp ⟨slot, generation⟩)) ∧
      transactionFormat.parseJournalInto (journalText (journal.stamp ⟨slot, generation⟩)) slot =
        some (restored (journal.stamp ⟨slot, generation⟩) slot) := by
  have inside : slot.val ≤ 1 := Nat.le_of_lt_succ slot.isLt
  have valid := journalValid_stamp ⟨slot, generation⟩ inside nonzero storable.valid
  have canonical : CanonicalJournal (journal.stamp ⟨slot, generation⟩) :=
    ⟨storable.canonical.source, storable.canonical.payloads⟩
  have room := journalText_length valid
  exact ⟨if_pos ⟨valid, room⟩,
    parseJournalInto_journalText inside valid canonical storable.old_zero room⟩

theorem sampleBatch_storable : Storable sampleBatch where
  valid := by decide +kernel
  canonical := by
    refine ⟨by unfold NormalPath; decide +kernel, fun entry member => ?_⟩
    rw [List.mem_singleton.mp member]
    exact ⟨by unfold NormalPath; decide +kernel, by unfold NormalPath; decide +kernel,
      by unfold NormalPath; decide +kernel, .inl rfl⟩
  old_zero := by
    intro entry member unknown
    rw [List.mem_singleton.mp member] at unknown
    cases unknown

section Samples

variable {state : StoreState TransactionJournal} {journal : TransactionJournal}

/-- The text of the sample batch under a stamp. -/
def sampleText (place : Fin 2 × UInt64) : Bytes :=
  journalText (sampleBatch.stamp ⟨place.1, place.2⟩)

/-- The sample batch as it is read back under a stamp. -/
def sampleIssue (place : Fin 2 × UInt64) : TransactionJournal :=
  restored (sampleBatch.stamp ⟨place.1, place.2⟩) place.1

theorem sampleText_serialized (place : Fin 2 × UInt64) (nonzero : place.2 ≠ 0) :
    transactionFormat.serializeJournal (transactionFormat.stamp sampleBatch place.1 place.2)
      transactionFormat.journal_max = some (sampleText place) :=
  (sampleBatch_storable.text place.1 place.2 nonzero).1

theorem sampleText_parsed (place : Fin 2 × UInt64) (nonzero : place.2 ≠ 0) :
    transactionFormat.parseJournalInto (sampleText place) place.1 = some (sampleIssue place) :=
  (sampleBatch_storable.text place.1 place.2 nonzero).2

theorem sampleBatch_issued {disk : SlotDisk} {place : Fin 2 × UInt64}
    (next : nextStamp transactionFormat disk = some place) (nonzero : place.2 ≠ 0) :
    issued transactionFormat disk sampleBatch = some (sampleIssue place) :=
  (issued_eq next (sampleText_serialized place nonzero)).trans (sampleText_parsed place nonzero)

theorem byte_rejected : ∀ slot : Fin 2, parseJournalInto [0] slot = none := by decide

section

variable (usable : ∀ slot, state.disk slot ≠ .directory)

include usable

theorem sampleBatch_acknowledged
    (place : Fin 2 × UInt64) (next : nextStamp transactionFormat state.disk = some place)
    (nonzero : place.2 ≠ 0) :
    CleanCall transactionFormat state
      { disk := state.disk.write place.1 (sampleText place)
        ledger := { acknowledged := sampleIssue place :: state.ledger.acknowledged } } := by
  have serialized := sampleText_serialized place nonzero
  have confirmed : transactionFormat.confirms (sampleIssue place)
      (transactionFormat.stamp sampleBatch place.1 place.2) = true := by
    simp [transactionFormat, sampleIssue, restored, headerOf]
  have completes : Completes (slotDevice true (torn transactionFormat)) _ _ state.disk :=
    writeInactive_completes transactionFormat_lawful usable next serialized
      (sampleText_parsed place nonzero) confirmed
  obtain ⟨answer, after, execution, answer_eq, rfl, -⟩ := completes.exists
  subst answer_eq
  refine ⟨sampleBatch, ⟨_, execution.mono slotDevice_weaker, ?_⟩,
    not_leavesTail_write (usable place.1) next serialized⟩
  rw [sampleBatch_issued next nonzero]
  rfl

theorem sampleBatch_cut
    (place : Fin 2 × UInt64) (next : nextStamp transactionFormat state.disk = some place)
    (nonzero : place.2 ≠ 0) :
    CleanCall transactionFormat state
      { disk := state.disk.write place.1 (sampleText place)
        ledger := { state.ledger with pending := sampleIssue place :: state.ledger.pending } } := by
  have serialized := sampleText_serialized place nonzero
  refine ⟨sampleBatch, ⟨none, writeInactive_may_be_cut transactionFormat_lawful next serialized
    (.inl rfl), ?_⟩, not_leavesTail_write (usable place.1) next serialized⟩
  rw [sampleBatch_issued next nonzero]
  rfl

theorem sampleBatch_torn
    (place : Fin 2 × UInt64) (next : nextStamp transactionFormat state.disk = some place)
    (nonzero : place.2 ≠ 0) :
    CleanCall transactionFormat state
      { disk := state.disk.write place.1 [0]
        ledger := { state.ledger with pending := sampleIssue place :: state.ledger.pending } } := by
  have serialized := sampleText_serialized place nonzero
  have rejected : torn transactionFormat state.disk place.1 (sampleText place) [0] :=
    byte_rejected place.1
  refine ⟨sampleBatch, ⟨none, writeInactive_may_be_cut transactionFormat_lawful next serialized
    (.inr rejected), ?_⟩, not_leavesTail_byte transactionFormat_lawful 0 (usable place.1) next⟩
  rw [sampleBatch_issued next nonzero]
  rfl

end

/-- A slot file holds the sample batch as the newest journal after its text was written. -/
theorem sampleText_newest {disk : SlotDisk} (usable : ∀ slot, disk slot ≠ .directory)
    (place : Fin 2 × UInt64) (next : nextStamp transactionFormat disk = some place)
    (nonzero : place.2 ≠ 0) :
    newest transactionFormat (disk.write place.1 (sampleText place)) = .found (sampleIssue place) :=
  newest_write_next transactionFormat_lawful next (usable place.1) (sampleText_parsed place nonzero) rfl

theorem write_usable {disk : SlotDisk} (usable : ∀ slot, disk slot ≠ .directory) (place : Fin 2)
    (data : Bytes) (slot : Fin 2) : disk.write place data slot ≠ .directory := by
  by_cases same : slot = place
  · subst same
    rw [write_same (usable slot)]
    exact nofun
  · rw [write_other same]
    exact usable slot

def acknowledgedSample : StoreState TransactionJournal where
  disk := SlotDisk.empty.write 0 (sampleText (0, 1))
  ledger := { acknowledged := [sampleIssue (0, 1)] }

/-- The store after a further sample batch whose call was cut behind its write. -/
def ambiguousSample : StoreState TransactionJournal where
  disk := acknowledgedSample.disk.write 1 (sampleText (1, 2))
  ledger := { acknowledged := [sampleIssue (0, 1)], pending := [sampleIssue (1, 2)] }

/-- The store after a third sample batch whose write was torn. -/
def tornSample : StoreState TransactionJournal where
  disk := ambiguousSample.disk.write 0 [0]
  ledger := { acknowledged := [sampleIssue (0, 1)], pending := [sampleIssue (0, 3), sampleIssue (1, 2)] }

theorem nextStamp_empty : nextStamp transactionFormat .empty = some (0, 1) := by
  simp [nextStamp, newest_empty transactionFormat_lawful]

theorem acknowledgedSample_usable (slot : Fin 2) : acknowledgedSample.disk slot ≠ .directory :=
  write_usable empty_usable 0 (sampleText (0, 1)) slot

theorem ambiguousSample_usable (slot : Fin 2) : ambiguousSample.disk slot ≠ .directory :=
  write_usable acknowledgedSample_usable 1 (sampleText (1, 2)) slot

theorem acknowledgedSample_newest :
    newest transactionFormat acknowledgedSample.disk = .found (sampleIssue (0, 1)) :=
  sampleText_newest empty_usable (0, 1) nextStamp_empty (by decide)

theorem nextStamp_acknowledgedSample :
    nextStamp transactionFormat acknowledgedSample.disk = some (1, 2) := by
  rw [nextStamp, acknowledgedSample_newest]
  rfl

theorem ambiguousSample_newest :
    newest transactionFormat ambiguousSample.disk = .found (sampleIssue (1, 2)) :=
  sampleText_newest acknowledgedSample_usable (1, 2) nextStamp_acknowledgedSample (by decide)

theorem nextStamp_ambiguousSample :
    nextStamp transactionFormat ambiguousSample.disk = some (0, 3) := by
  rw [nextStamp, ambiguousSample_newest]
  rfl

theorem tornSample_newest :
    newest transactionFormat tornSample.disk = .found (sampleIssue (1, 2)) :=
  newest_write_rejected transactionFormat_lawful ambiguousSample_newest (byte_rejected 0)

theorem acknowledgedSample_history :
    Relation.ReflTransGen (CleanCall transactionFormat)
      (StoreState.start transactionFormat .empty) acknowledgedSample := by
  rw [start_empty transactionFormat_lawful]
  exact .single (sampleBatch_acknowledged empty_usable (0, 1) nextStamp_empty (by decide))

theorem tornSample_history :
    Relation.ReflTransGen (CleanCall transactionFormat)
      (StoreState.start transactionFormat .empty) tornSample :=
  (acknowledgedSample_history.tail (sampleBatch_cut acknowledgedSample_usable (1, 2)
    nextStamp_acknowledgedSample (by decide))).tail
      (sampleBatch_torn ambiguousSample_usable (0, 3) nextStamp_ambiguousSample (by decide))

end Samples

end R4OS.Update
