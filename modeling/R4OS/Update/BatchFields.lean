import R4OS.Update.BatchStore

/-!
# Which batch journals survive their text

The validator of batch journals asks nothing of a package path but its length, while the parser
accepts the normal form of an absolute path only.  A serialized batch is therefore restored from its
text exactly when every package path is its own normal form.
-/

namespace R4OS.Update
namespace Batch

open Text

/-- All entries have paths that a field can carry. -/
def PlainEntries (entries : List PackageEntry) : Prop :=
  ∀ entry ∈ entries, PlainPath entry.path.bytes

theorem parsePackageLine_plain {line : Bytes} {index : Nat} {entry : PackageEntry}
    (parsed : parsePackageLine line index = some entry) : PlainPath entry.path.bytes := by
  unfold parsePackageLine at parsed
  iterate 7
    replace parsed := bind_some parsed
    obtain ⟨_, -, parsed⟩ := parsed
  obtain ⟨_, -, parsed⟩ := bind_some parsed
  obtain ⟨path, normal, parsed⟩ := bind_some parsed
  iterate 18
    replace parsed := bind_some parsed
    obtain ⟨_, -, parsed⟩ := parsed
  cases parsed
  exact (normalizeAbsolutePath_plain normal).1

theorem once_plain {Value : Type} {seen value : Option Value} {set : Value → BatchScan}
    {next : BatchScan} (read : once seen value set = some next)
    (former : ∀ value, PlainEntries (set value).packages) : PlainEntries next.packages := by
  unfold once at read
  split at read
  · cases read
  · obtain ⟨value, -, rfl⟩ := Option.map_eq_some_iff.mp read
    exact former value

theorem parseLine_plain {scan next : BatchScan} {line : Bytes}
    (read : parseLine scan line = some next) (former : PlainEntries scan.packages) :
    PlainEntries next.packages := by
  rw [parseLine] at read
  rcases branch read with read | read
  · cases read
    exact former
  rcases branch read with read | read
  · rcases branch read with read | read
    · cases read
    · cases read
      exact former
  iterate 8
    rcases branch read with stop | read
    · exact once_plain stop fun _ => former
  rcases branch read with read | read
  · obtain ⟨entry, parsed, rfl⟩ := Option.map_eq_some_iff.mp read
    intro other member
    rcases List.mem_append.mp member with member | member
    · exact former other member
    · rw [List.mem_singleton.mp member]
      exact parsePackageLine_plain parsed
  · cases read

theorem foldlM_parseLine_plain {texts : List Bytes} {scan final : BatchScan}
    (read : texts.foldlM parseLine scan = some final) (former : PlainEntries scan.packages) :
    PlainEntries final.packages := by
  induction texts generalizing scan with
  | nil => exact Option.some.inj read ▸ former
  | cons line texts induction =>
    rw [List.foldlM_cons] at read
    obtain ⟨next, step, rest⟩ := bind_some read
    exact induction rest (parseLine_plain step former)

/-- No parsed batch journal has a path that a field cannot carry. -/
theorem parseJournalInto_plainBatch {data : Bytes} {slot : Nat} {journal : BatchJournal}
    (parsed : parseJournalInto data slot = some journal) : PlainBatch journal := by
  unfold parseJournalInto at parsed
  iterate 4
    replace parsed := bind_some parsed
    obtain ⟨_, -, parsed⟩ := parsed
  obtain ⟨scan, scanned, parsed⟩ := bind_some parsed
  obtain ⟨finished, finished_eq, parsed⟩ := bind_some parsed
  obtain ⟨_, -, parsed⟩ := bind_some parsed
  cases parsed
  unfold BatchScan.journal at finished_eq
  iterate 10
    replace finished_eq := bind_some finished_eq
    obtain ⟨_, -, finished_eq⟩ := finished_eq
  cases finished_eq
  exact foldlM_parseLine_plain scanned fun _ member => nomatch member

theorem canonical_of_restored {journal : BatchJournal} {slot : Nat} (inside : slot ≤ 1)
    (valid : journalValid journal = true) (room : (journalText journal).length ≤ journal_max)
    (restored : parseJournalInto (journalText journal) slot = some { journal with slot := slot }) :
    CanonicalBatch journal := by
  have plain : PlainBatch journal := fun entry member =>
    parseJournalInto_plainBatch restored entry member
  rw [parseJournalInto_plain inside valid plain room] at restored
  obtain ⟨packages, normalized, same⟩ := Option.bind_eq_some_iff.mp restored
  split at same
  · have equal : packages = journal.packages :=
      congrArg BatchJournal.packages (Option.some.inj same)
    exact mapM_normalizeEntry_eq_self.mp (equal ▸ normalized)
  · cases same

/-- A serialized batch journal is restored from its text exactly when all its package paths are in
normal form. -/
theorem batch_restored_iff {journal : BatchJournal} {capacity slot : Nat} {text : Bytes}
    (small : capacity ≤ journal_max) (inside : slot ≤ 1)
    (serialized : serializeJournal journal capacity = some text) :
    parseJournalInto text slot = some { journal with slot := slot } ↔ CanonicalBatch journal := by
  unfold serializeJournal at serialized
  split at serialized
  · next accepted =>
      obtain ⟨valid, fits⟩ := accepted
      cases serialized
      have room := Nat.le_trans fits small
      constructor
      · exact canonical_of_restored inside valid room
      · intro canonical
        exact parseJournalInto_journalText inside valid canonical room
  · cases serialized

/-- The sample batch is restored from its text. -/
theorem batch_restored_iff_sample :
    parseJournalInto (journalText sampleJournal) 1 = some { sampleJournal with slot := 1 } :=
  (batch_restored_iff .refl (by decide)
    (if_pos ⟨by decide +kernel, by decide +kernel⟩)).mpr sampleJournal_storable.canonical

/-- A batch whose only package has a field separator and a second priority in its path. -/
def injectedJournal : BatchJournal :=
  { sampleJournal with
    packages := sampleJournal.packages.map fun entry =>
      { entry with path := ⟨ascii "C:\\TEMP\\A.R4U;priority=foundation", by decide⟩ } }

/-- A serialized batch journal whose text is not read back as that journal. -/
theorem injectedJournal_lost :
    serializeJournal injectedJournal journal_max = some (journalText injectedJournal) ∧
      parseJournalInto (journalText injectedJournal) 0 ≠
        some { injectedJournal with slot := 0 } := by
  refine ⟨if_pos ⟨by decide +kernel, by decide +kernel⟩, fun restored => ?_⟩
  have plain := parseJournalInto_plainBatch restored _ (.head _)
  exact absurd (plain.1 semicolon (by decide)) (by decide)

end Batch
end R4OS.Update
