import R4OS.Update.JournalStore

/-!
# Which journals survive their text

A parsed payload never carries the fingerprint of an old file that it calls unknown.  A valid journal
with normal paths is therefore restored from its text exactly when none of its payloads does.
-/

namespace R4OS.Update

open Text

structure FieldsRestored (journal parsed : TransactionJournal) : Prop where
  header : headerOf parsed parsed.slot = headerOf journal journal.slot
  payloads : parsed.payloads = journal.payloads
  component_count : parsed.component_count = journal.component_count
  components : journal.components_bound = true → parsed.components = journal.components

theorem restored_fields (journal : TransactionJournal) :
    FieldsRestored journal (restored journal journal.slot) where
  header := rfl
  payloads := rfl
  component_count := restored_component_count journal journal.slot
  components := restored_components journal.slot

/-- No size or checksum without a fingerprint. -/
def OldZero (entry : JournalPayload) : Prop :=
  entry.old_known = false → entry.old_size = 0 ∧ entry.old_checksum = 0

theorem parseFingerprint_zero {line known_key size_key checksum_key : Bytes} {known : Bool}
    {size : UInt64} {digest : UInt32}
    (parsed : parseFingerprint line known_key size_key checksum_key = some (known, size, digest))
    (unknown : known = false) : size = 0 ∧ digest = 0 := by
  subst unknown
  unfold parseFingerprint at parsed
  split at parsed
  · split at parsed
    · cases parsed
    · obtain ⟨_, -, parsed⟩ := bind_some parsed
      obtain ⟨_, -, parsed⟩ := bind_some parsed
      obtain ⟨_, -, parsed⟩ := bind_some parsed
      obtain ⟨_, -, parsed⟩ := bind_some parsed
      cases parsed
    · obtain ⟨_, -, parsed⟩ := bind_some parsed
      obtain ⟨_, -, parsed⟩ := bind_some parsed
      cases parsed
      exact ⟨rfl, rfl⟩
  · obtain ⟨_, -, parsed⟩ := bind_some parsed
    cases parsed
    exact ⟨rfl, rfl⟩

theorem parsePayloadLine_oldZero {payload_count index : Nat} {line : Bytes} {entry : JournalPayload}
    (parsed : parsePayloadLine payload_count line = some (index, entry)) : OldZero entry := by
  unfold parsePayloadLine at parsed
  iterate 19
    replace parsed := bind_some parsed
    obtain ⟨_, -, parsed⟩ := parsed
  obtain ⟨⟨known, size, digest⟩, old, parsed⟩ := bind_some parsed
  iterate 9
    replace parsed := bind_some parsed
    obtain ⟨_, -, parsed⟩ := parsed
  cases parsed
  exact parseFingerprint_zero old

theorem fill_forall {Entry : Type} {array filled : Entries Entry} {indexed : Nat × Entry}
    {holds : Entry → Prop} (fill : array.fill indexed = some filled)
    (former : ∀ entry ∈ array.entries, holds entry) (added : holds indexed.2) :
    ∀ entry ∈ filled.entries, holds entry := by
  unfold Entries.fill at fill
  split at fill
  · cases fill
  · cases fill
    intro entry member
    rcases List.mem_or_eq_of_mem_set member with member | rfl
    · exact former entry member
    · exact added

theorem parseBodyLine_oldZero {header : TransactionJournal} {payload_count component_count : Nat}
    {arrays next : Entries JournalComponent × Entries JournalPayload} {line : Bytes}
    (parsed : parseBodyLine header payload_count component_count arrays line = some next)
    (former : ∀ entry ∈ arrays.2.entries, OldZero entry) :
    ∀ entry ∈ next.2.entries, OldZero entry := by
  unfold parseBodyLine at parsed
  split at parsed
  · obtain ⟨_, -, parsed⟩ := bind_some parsed
    obtain ⟨_, -, parsed⟩ := bind_some parsed
    cases parsed
    exact former
  split at parsed
  · obtain ⟨⟨index, entry⟩, line_eq, parsed⟩ := bind_some parsed
    obtain ⟨filled, fill, parsed⟩ := bind_some parsed
    cases parsed
    exact fill_forall fill former (parsePayloadLine_oldZero line_eq)
  · cases parsed
    exact former

theorem foldlM_parseBodyLine_oldZero {header : TransactionJournal}
    {payload_count component_count : Nat} {texts : List Bytes}
    {arrays final : Entries JournalComponent × Entries JournalPayload}
    (parsed : texts.foldlM (parseBodyLine header payload_count component_count) arrays = some final)
    (former : ∀ entry ∈ arrays.2.entries, OldZero entry) :
    ∀ entry ∈ final.2.entries, OldZero entry := by
  induction texts generalizing arrays with
  | nil =>
    cases parsed
    exact former
  | cons line rest induction =>
    rw [List.foldlM_cons] at parsed
    obtain ⟨next, head, parsed⟩ := bind_some parsed
    exact induction parsed (parseBodyLine_oldZero head former)

theorem parseJournalInto_unknownOldZero {data : Bytes} {slot : Nat} {journal : TransactionJournal}
    (parsed : parseJournalInto data slot = some journal) : UnknownOldZero journal := by
  unfold parseJournalInto at parsed
  iterate 5
    replace parsed := bind_some parsed
    obtain ⟨_, -, parsed⟩ := parsed
  obtain ⟨⟨header, payload_count, component_count⟩, -, parsed⟩ := bind_some parsed
  obtain ⟨arrays, arrays_eq, parsed⟩ := bind_some parsed
  iterate 3
    replace parsed := bind_some parsed
    obtain ⟨_, -, parsed⟩ := parsed
  cases parsed
  refine foldlM_parseBodyLine_oldZero arrays_eq fun entry member => ?_
  rw [List.eq_of_mem_replicate member]
  exact fun _ => ⟨rfl, rfl⟩

theorem journalValid_slot {journal : TransactionJournal} (valid : journalValid journal = true) :
    journal.slot ≤ 1 := by
  have header := (validParts valid).header
  simp only [headerValid, Bool.and_eq_true, decide_eq_true_eq] at header
  exact header.1.1.1.1.1.1.1.1.1.1.1.1.1.1.1.2

/-- Whether the text of a journal restores its fields. -/
def SurvivesText (journal : TransactionJournal) : Prop :=
  ∃ text parsed, serializeJournal journal journal_max = some text ∧
    parseJournalInto text journal.slot = some parsed ∧ FieldsRestored journal parsed

/-- A valid journal with normal paths is serialized into a slot and restored from it exactly when no
payload carries a size or checksum of an old file whose fingerprint it calls unknown. -/
theorem survivesText_iff {journal : TransactionJournal} (valid : journalValid journal = true)
    (canonical : CanonicalJournal journal) : SurvivesText journal ↔ UnknownOldZero journal := by
  constructor
  · rintro ⟨text, parsed, -, parsed_eq, fields⟩ entry member
    exact parseJournalInto_unknownOldZero parsed_eq entry (fields.payloads ▸ member)
  · intro old_zero
    have room := journalText_length valid
    refine ⟨journalText journal, restored journal journal.slot, if_pos ⟨valid, room⟩, ?_,
      restored_fields journal⟩
    exact parseJournalInto_journalText (journalValid_slot valid) valid canonical old_zero room

/-- The sample batch is restored from its text. -/
theorem survivesText_iff_sample : SurvivesText (sampleBatch.stamp ⟨0, 1⟩) :=
  (survivesText_iff sampleBatch_storable.valid
    ⟨sampleBatch_storable.canonical.source, sampleBatch_storable.canonical.payloads⟩).mpr
    sampleBatch_storable.old_zero

/-- A batch whose only payload has the size of an old file without its fingerprint. -/
def unknownOldBatch : TransactionJournal :=
  { sampleBatch with payloads := [{ samplePayload with old_known := false }] }

/-- A valid journal with normal paths that its own text does not restore. -/
theorem unknownOldBatch_lost :
    journalValid unknownOldBatch = true ∧ CanonicalJournal unknownOldBatch ∧
      ¬SurvivesText unknownOldBatch := by
  refine ⟨by decide +kernel, ⟨sampleBatch_storable.canonical.source, fun entry member => ?_⟩, ?_⟩
  · rw [List.mem_singleton.mp member]
    have normal := sampleBatch_storable.canonical.payloads samplePayload (.head _)
    exact ⟨normal.target, normal.stage, normal.backup, normal.previous⟩
  · rintro ⟨text, parsed, -, parsed_eq, fields⟩
    have zero := parseJournalInto_unknownOldZero parsed_eq
      { samplePayload with old_known := false } (by rw [fields.payloads]; exact (.head _)) rfl
    exact absurd zero.1 (by decide)

end R4OS.Update
