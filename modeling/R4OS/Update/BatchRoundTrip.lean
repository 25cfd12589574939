import R4OS.Update.Batch
import R4OS.Update.JournalRestore

/-!
# The batch journal round trip

Every valid batch journal with normal paths fits a slot and is read back from its text.
-/

namespace R4OS.Update
namespace Batch

open Text

variable {value : Bytes} {journal : BatchJournal} {entry : PackageEntry}

theorem appendDigit_digit {limit value next : Nat} {byte : UInt8}
    (read : appendDigit limit value byte = some next) : isDigit byte = true := by
  unfold appendDigit at read
  split at read
  · assumption
  · cases read

theorem foldlM_appendDigit_digit {limit value final : Nat} {digits : Bytes}
    (read : digits.foldlM (appendDigit limit) value = some final) :
    ∀ byte ∈ digits, isDigit byte = true := by
  induction digits generalizing value with
  | nil => simp
  | cons head digits induction =>
    rw [List.foldlM_cons] at read
    obtain ⟨next, step, rest⟩ := Option.bind_eq_some_iff.mp read
    intro byte member
    rcases List.mem_cons.mp member with rfl | member
    · exact appendDigit_digit step
    · exact induction rest byte member

theorem versionPart_digit {part : Bytes} (valid : versionPartValid part = true) :
    ∀ byte ∈ part, isDigit byte = true := by
  simp only [versionPartValid, Bool.and_eq_true, Option.isSome_iff_exists] at valid
  obtain ⟨-, value, read⟩ := valid
  unfold parseDecimal at read
  split at read
  · cases read
  · exact foldlM_appendDigit_digit read

theorem mem_intercalate {separator : UInt8} {parts : List Bytes} {byte : UInt8}
    (member : byte ∈ [separator].intercalate parts) :
    byte = separator ∨ ∃ part ∈ parts, byte ∈ part := by
  induction parts with
  | nil => cases member
  | cons part parts induction =>
    by_cases last : parts = []
    · subst last
      rw [List.intercalate_singleton] at member
      exact .inr ⟨part, by simp, member⟩
    · rw [List.intercalate_cons_of_ne_nil last, List.mem_append, List.mem_append] at member
      rcases member with (member | member) | member
      · exact .inr ⟨part, by simp, member⟩
      · exact .inl (List.mem_singleton.mp member)
      · refine (induction member).imp id ?_
        rintro ⟨other, other_mem, byte_mem⟩
        exact ⟨other, .tail _ other_mem, byte_mem⟩

section

variable (valid : validSemanticVersion value = true)

include valid

theorem semanticVersion_byte :
    ∀ byte ∈ value, isDigit byte = true ∨ byte = chr '.' := by
  simp only [validSemanticVersion, Bool.and_eq_true, List.all_eq_true] at valid
  obtain ⟨⟨-, parts⟩, -⟩ := valid
  intro byte member
  have joined : [chr '.'].intercalate (value.splitOn (chr '.')) = value := List.intercalate_splitOn _
  rw [← joined] at member
  rcases mem_intercalate member with dot | ⟨part, part_mem, byte_mem⟩
  · exact .inr dot
  · exact .inl (versionPart_digit (parts part part_mem) byte byte_mem)

theorem semanticVersion_fieldValue :
    FieldValue value := by
  constructor
  · intro byte member
    rcases semanticVersion_byte valid byte member with digit | rfl
    · exact UInt8.le_of_lt (digit_visible digit)
    · decide
  · intro member
    rcases semanticVersion_byte valid semicolon member with digit | dot
    · exact absurd digit (by decide)
    · exact absurd dot (by decide)

theorem semanticVersion_length :
    value.length ≤ version_max_bytes := by
  simp only [validSemanticVersion, Bool.and_eq_true, decide_eq_true_eq] at valid
  exact valid.1.1.2

end

theorem token_fieldValue {max_bytes : Nat}
    (valid : validToken value max_bytes = true) : FieldValue value := by
  simp only [validToken, Bool.and_eq_true, List.all_eq_true, decide_eq_true_eq] at valid
  constructor
  · intro byte member
    exact UInt8.le_of_lt (valid.2 byte member).1.1
  · intro member
    exact absurd (valid.2 _ member).2 (by decide)

theorem token_length {max_bytes : Nat} (valid : validToken value max_bytes = true) :
    value.length ≤ max_bytes := by
  simp only [validToken, Bool.and_eq_true, decide_eq_true_eq] at valid
  exact valid.1.2

theorem reason_visible (valid : validReason value = true) : Visible value := by
  simp only [validReason, Bool.and_eq_true, List.all_eq_true, decide_eq_true_eq] at valid
  intro byte member
  exact (valid.2 byte member).1.1

theorem reason_length (valid : validReason value = true) :
    value.length ≤ max_reason := by
  simp only [validReason, Bool.and_eq_true, decide_eq_true_eq] at valid
  exact valid.1

theorem phase_fieldValue (phase : Phase) : FieldValue phase.text := by
  cases phase <;> exact ⟨by decide, by decide⟩

variable (mode : InstallMode)

theorem installMode_fieldValue : FieldValue mode.text := by
  cases mode <;> exact ⟨by decide, by decide⟩

variable (priority : Priority)

theorem priority_fieldValue : FieldValue priority.text := by
  cases priority <;> exact ⟨by decide, by decide⟩

theorem parseU64_decimal (value : UInt64) : parseU64 (decimal value.toNat) = some value := by
  have bounded : value.toNat ≤ 2 ^ 64 - 1 := by have := value.toNat_lt; omega
  rw [parseU64, parseDecimal_decimal bounded, Option.map_some, UInt64.ofNat_toNat]

theorem parseU32_decimal {value : Nat} (small : value < 2 ^ 32) :
    parseU32 (decimal value) = some (UInt32.ofNat value) := by
  have wide : value < 2 ^ 64 := by omega
  have back : (UInt64.ofNat value).toNat = value := UInt64.toNat_ofNat_of_lt' wide
  have read := parseU64_decimal (UInt64.ofNat value)
  rw [back] at read
  rw [parseU32, read]
  simp only [back]
  exact if_pos (by omega)

theorem parseU32_toNat (value : UInt32) : parseU32 (decimal value.toNat) = some value := by
  rw [parseU32_decimal value.toNat_lt, UInt32.ofNat_toNat]

theorem parsePhase_text (phase : Phase) : Phase.parse phase.text = some phase := by
  cases phase <;> decide

theorem parseInstallMode_text : InstallMode.parse mode.text = some mode := by
  cases mode <;> decide

theorem parsePriority_text : Priority.parse priority.text = some priority := by
  cases priority <;> decide

theorem trimLine_append_visible (front : Bytes) {back : Bytes} (visible : Visible back)
    (nonempty : back ≠ []) : trimLine (front ++ back) = front ++ back := by
  rw [trimLine, List.rdropWhile_eq_self_iff]
  intro _
  rw [List.getLast_append_of_ne_nil _ nonempty]
  have printable := visible _ (List.getLast_mem nonempty)
  simp only [isLineEnd, Bool.or_eq_true, beq_iff_eq]
  rintro (carriage | feed)
  · rw [carriage] at printable
    exact absurd printable (by decide)
  · rw [feed] at printable
    exact absurd printable (by decide)

theorem trimLine_visible (visible : Visible value) : trimLine value = value := by
  by_cases empty : value = []
  · rw [empty]
    rfl
  · exact trimLine_append_visible [] visible empty

theorem trimLine_newline (line : Bytes) : trimLine (line ++ [newline]) = trimLine line :=
  List.rdropWhile_concat_pos _ _ _ (by decide)

theorem splitOn_unlines_append {texts : List Bytes} (unbroken : ∀ line ∈ texts, newline ∉ line)
    (rest : Bytes) : (unlines texts ++ rest).splitOn newline = texts ++ rest.splitOn newline := by
  induction texts with
  | nil => rfl
  | cons line texts induction =>
    have tail_unbroken : ∀ other ∈ texts, newline ∉ other := fun other member =>
      unbroken other (.tail _ member)
    rw [unlines_cons, List.append_assoc, List.cons_append,
      List.splitOn_append_cons_self_of_not_mem (unbroken line (by simp)), induction tail_unbroken,
      List.cons_append]

/-- All package paths of a batch are in normal form. -/
def CanonicalBatch (journal : BatchJournal) : Prop :=
  ∀ entry ∈ journal.packages, NormalPath entry.path

/-- All package paths of a batch are texts that a field can carry. -/
def PlainBatch (journal : BatchJournal) : Prop :=
  ∀ entry ∈ journal.packages, PlainPath entry.path.bytes

theorem CanonicalBatch.plain (canonical : CanonicalBatch journal) :
    PlainBatch journal :=
  fun entry member => (canonical entry member).plain

/-- The rules of a valid batch journal. -/
structure BatchParts (journal : BatchJournal) : Prop where
  valid : journal.valid = true
  batch_generation : journal.batch_generation ≠ 0
  journal_generation : journal.journal_generation ≠ 0
  package_max : journal.package_count ≤ max_packages
  current_le : journal.current_package ≤ journal.package_count
  source : validSemanticVersion journal.source_release.bytes = true
  target : validSemanticVersion journal.target_release.bytes = true
  reason : validReason journal.reason.bytes = true
  packages : ∀ entry ∈ journal.packages, entryValid journal entry = true

theorem batchParts (valid : journalValid journal = true) :
    BatchParts journal := by
  simp only [journalValid, Bool.and_eq_true, decide_eq_true_eq, bne_iff_ne, List.all_eq_true] at valid
  obtain ⟨⟨⟨⟨⟨⟨⟨⟨⟨⟨⟨⟨valid, -⟩, batch⟩, generation⟩, -⟩, package_max⟩, current_le⟩, source⟩, target⟩,
    reason⟩, packages⟩, -⟩, -⟩ := valid
  exact ⟨valid, batch, generation, package_max, current_le, source, target, reason, packages⟩

structure EntryParts (journal : BatchJournal) (entry : PackageEntry) : Prop where
  order : entry.order < journal.package_count
  package : validToken entry.package.bytes package_name_max_bytes = true
  version : validSemanticVersion entry.package_version.bytes = true
  release : validSemanticVersion entry.release.bytes = true

theorem entryParts (valid : entryValid journal entry = true) : EntryParts journal entry := by
  simp only [entryValid, Bool.and_eq_true, decide_eq_true_eq] at valid
  obtain ⟨⟨⟨⟨⟨⟨⟨order, -⟩, -⟩, package⟩, version⟩, release⟩, -⟩, -⟩ := valid
  exact ⟨order, package, version, release⟩

variable (indexed : PackageEntry × Nat)

theorem packageFields_keys :
    ∀ field ∈ packageFields indexed, KeyText field.1 := by
  simp only [packageFields, List.forall_mem_cons]
  decide

theorem packageFields_values
    (parts : EntryParts journal entry) (plain : PlainPath entry.path.bytes) (index : Nat) :
    ∀ field ∈ packageFields (entry, index), FieldValue field.2 := by
  simp only [packageFields, List.forall_mem_cons, List.not_mem_nil, false_imp_iff, implies_true,
    and_true]
  exact ⟨decimal_fieldValue _, decimal_fieldValue _, plain.fieldValue,
    token_fieldValue parts.package, semanticVersion_fieldValue parts.version,
    semanticVersion_fieldValue parts.release, decimal_fieldValue _, decimal_fieldValue _,
    decimal_fieldValue _, decimal_fieldValue _, installMode_fieldValue _, priority_fieldValue _⟩

theorem package_rendered
    (parts : EntryParts journal entry) (plain : PlainPath entry.path.bytes) (index : Nat) :
    Rendered (ascii "PACKAGE") (packageFields (entry, index)) where
  distinct := by
    unfold KeysDistinct
    simp only [packageFields, List.map_cons, List.map_nil]
    decide
  tag_plain := by decide
  fields_plain field member :=
    ⟨(packageFields_keys _ field member).plain,
      (packageFields_values parts plain index field member).plain⟩
  tag_foreign := by
    simp only [packageFields, List.forall_mem_cons]
    decide

theorem firstField_rendered {tag : Bytes} {fields : List (Bytes × Bytes)}
    (rendered : Rendered tag fields) :
    ∀ field ∈ fields, firstField (fieldLine tag fields) field.1 = some field.2 := by
  intro field member
  have absent := rendered.tag_foreign field member
  rw [firstField, rendered.parts, ← List.head?_filter, List.filter_cons, absent,
    if_neg Bool.false_ne_true, filter_keyed rendered.distinct member]
  simp [keyed]

theorem packageFields_names :
    ∀ field ∈ packageFields indexed, field.1.dropLast ∈ packageNames ∧
      field.1 = field.1.dropLast ++ [chr '='] ∧ chr '=' ∉ field.1.dropLast := by
  simp only [packageFields, List.forall_mem_cons]
  and_intros <;> decide

theorem packageLine_known
    (parts : EntryParts journal entry) (plain : PlainPath entry.path.bytes) (index : Nat) :
    lineFieldsKnown (packageLine (entry, index)) packageNames = true := by
  rw [lineFieldsKnown, packageLine, (package_rendered parts plain index).parts, List.tail_cons,
    List.all_map, List.all_eq_true]
  intro field member
  obtain ⟨known, key_eq, plain⟩ := packageFields_names (entry, index) field member
  have keyed_eq : keyed field = field.1.dropLast ++ chr '=' :: field.2 := by
    rw [keyed, key_eq, List.dropLast_concat, List.append_assoc, List.singleton_append]
  have name : (keyed field).takeWhile (fun byte => byte != chr '=') = field.1.dropLast := by
    rw [keyed_eq, List.takeWhile_append_of_pos]
    · simp
    · intro byte byte_mem
      simp only [bne_iff_ne, ne_eq]
      rintro rfl
      exact plain byte_mem
  simp only [Function.comp_apply, Bool.and_eq_true, List.contains_iff_mem, name]
  exact ⟨by simp [keyed_eq], known⟩

theorem packageLine_eq :
    ∃ rest, packageLine indexed = ascii "PACKAGE;" ++ rest := by
  have split : ascii "PACKAGE;" = ascii "PACKAGE" ++ [semicolon] := by decide
  rw [packageLine, fieldLine_eq, split, packageFields, List.flatMap_cons]
  exact ⟨_, by rw [List.append_assoc]; rfl⟩

/-- An entry whose path went through the normal form. -/
def normalizeEntry (entry : PackageEntry) : Option PackageEntry :=
  (normalizeAbsolutePath max_path entry.path.bytes).map fun path => { entry with path }

theorem parsePackageLine_line
    (parts : EntryParts journal entry) (plain : PlainPath entry.path.bytes) (index : Nat)
    (inside : index < max_packages) (few : journal.package_count ≤ max_packages) :
    parsePackageLine (packageLine (entry, index)) index = normalizeEntry entry := by
  have found := firstField_rendered (package_rendered parts plain index)
  have known := packageLine_known parts plain index
  rw [← packageLine] at found
  generalize packageLine (entry, index) = line at found known
  simp only [packageFields, List.forall_mem_cons] at found
  obtain ⟨index_eq, order, path, package, version, release, length, digest, manifest, component,
    activation, priority⟩ := found
  have max_eq : max_packages = 16 := rfl
  have order_lt := parts.order
  have opened : index < max_packages ∧ lineFieldsKnown line packageNames = true := ⟨inside, known⟩
  have index_back : (UInt32.ofNat index).toNat = index := by
    rw [UInt32.toNat_ofNat']
    omega
  have order_back : (UInt32.ofNat entry.order).toNat = entry.order := by
    rw [UInt32.toNat_ofNat']
    omega
  have order_inside : entry.order < max_packages := by omega
  have package_copy : copyTextZ (package_name_max_bytes + 1) entry.package.bytes =
      some entry.package :=
    copyTextZ_bytes _ (Nat.lt_succ_of_le (token_length parts.package))
  have version_copy : copyTextZ (version_max_bytes + 1) entry.package_version.bytes =
      some entry.package_version :=
    copyTextZ_bytes _ (Nat.lt_succ_of_le (semanticVersion_length parts.version))
  have release_copy : copyTextZ (version_max_bytes + 1) entry.release.bytes = some entry.release :=
    copyTextZ_bytes _ (Nat.lt_succ_of_le (semanticVersion_length parts.release))
  have index_read : parseU32 (decimal index) = some (UInt32.ofNat index) :=
    parseU32_decimal (by omega)
  have order_read : parseU32 (decimal entry.order) = some (UInt32.ofNat entry.order) :=
    parseU32_decimal (by omega)
  simp only [parsePackageLine, guard_of opened, index_eq, order, path, package, version, release,
    length, digest, manifest, component, activation, priority, index_read, order_read, index_back,
    order_back, guard_of, order_inside, package_copy, version_copy, release_copy, parseU64_decimal,
    parseU32_toNat, parseInstallMode_text, parsePriority_text, Option.bind_eq_bind,
    Option.bind_some, Option.pure_def, normalizeEntry, Option.map_eq_bind, Function.comp_def]

theorem normalizeEntry_eq_self :
    normalizeEntry entry = some entry ↔ NormalPath entry.path := by
  rw [normalizeEntry, Option.map_eq_some_iff]
  constructor
  · rintro ⟨path, normal, same⟩
    rw [NormalPath, normal, ← same]
  · intro normal
    exact ⟨entry.path, normal, rfl⟩

section Header

variable (scan : BatchScan) (value : Bytes)

theorem parseLine_magic :
    parseLine scan (ascii "R4U_BATCH=" ++ ascii "1") =
      if scan.saw_magic then none else some { scan with saw_magic := true } := rfl

theorem parseLine_batch_generation :
    parseLine scan (ascii "BATCH_GENERATION=" ++ value) =
      once scan.batch_generation (parseU64 value) fun read =>
        { scan with batch_generation := some read } := rfl

theorem parseLine_journal_generation :
    parseLine scan (ascii "JOURNAL_GENERATION=" ++ value) =
      once scan.journal_generation (parseU64 value) fun read =>
        { scan with journal_generation := some read } := rfl

theorem parseLine_phase :
    parseLine scan (ascii "PHASE=" ++ value) =
      once scan.phase (Phase.parse value) fun read => { scan with phase := some read } := rfl

theorem parseLine_source_release :
    parseLine scan (ascii "SOURCE_RELEASE=" ++ value) =
      once scan.source_release (copyTextZ _ value) fun read =>
        { scan with source_release := some read } := rfl

theorem parseLine_target_release :
    parseLine scan (ascii "TARGET_RELEASE=" ++ value) =
      once scan.target_release (copyTextZ _ value) fun read =>
        { scan with target_release := some read } := rfl

theorem parseLine_packages :
    parseLine scan (ascii "PACKAGES=" ++ value) =
      once scan.package_count ((parseU32 value).map UInt32.toNat) fun read =>
        { scan with package_count := some read } := rfl

theorem parseLine_current_package :
    parseLine scan (ascii "CURRENT_PACKAGE=" ++ value) =
      once scan.current_package ((parseU32 value).map UInt32.toNat) fun read =>
        { scan with current_package := some read } := rfl

theorem parseLine_reason :
    parseLine scan (ascii "REASON=" ++ value) =
      once scan.reason (copyTextZ _ value) fun read => { scan with reason := some read } := rfl

theorem parseLine_package :
    parseLine scan (ascii "PACKAGE;" ++ value) =
      (parsePackageLine (ascii "PACKAGE;" ++ value) scan.packages.length).map fun entry =>
        { scan with packages := scan.packages ++ [entry] } := rfl

end Header

section Text

variable {journal : BatchJournal}

variable {slot : Nat}

def headerScan (journal : BatchJournal) : BatchScan where
  saw_magic := true
  batch_generation := some journal.batch_generation
  journal_generation := some journal.journal_generation
  phase := some journal.phase
  source_release := some journal.source_release
  target_release := some journal.target_release
  package_count := some journal.package_count
  current_package := some journal.current_package
  reason := some journal.reason

theorem foldlM_headerLines (parts : BatchParts journal) :
    ((headerFields journal).map keyed).foldlM parseLine {} = some (headerScan journal) := by
  have source : copyTextZ (version_max_bytes + 1) journal.source_release.bytes =
      some journal.source_release :=
    copyTextZ_bytes _ (Nat.lt_succ_of_le (semanticVersion_length parts.source))
  have target : copyTextZ (version_max_bytes + 1) journal.target_release.bytes =
      some journal.target_release :=
    copyTextZ_bytes _ (Nat.lt_succ_of_le (semanticVersion_length parts.target))
  have reason : copyTextZ (max_reason + 1) journal.reason.bytes = some journal.reason :=
    copyTextZ_bytes _ (Nat.lt_succ_of_le (reason_length parts.reason))
  have package_max := parts.package_max
  have current_le := parts.current_le
  have max_eq : max_packages = 16 := rfl
  have counted (count : Nat) (small : count ≤ 16) :
      (parseU32 (decimal count)).map UInt32.toNat = some count := by
    rw [parseU32_decimal (by omega), Option.map_some, UInt32.toNat_ofNat']
    exact congrArg some (Nat.mod_eq_of_lt (by omega))
  simp only [headerFields, List.map_cons, List.map_nil, keyed, List.foldlM_cons, List.foldlM_nil,
    parseLine_magic, parseLine_batch_generation, parseLine_journal_generation, parseLine_phase,
    parseLine_source_release, parseLine_target_release, parseLine_packages,
    parseLine_current_package, parseLine_reason, once, Option.isSome_none, Bool.false_eq_true,
    if_false, parseU64_decimal, parsePhase_text, source, target, reason,
    counted journal.package_count (by omega), counted journal.current_package (by omega),
    Option.map_some, Option.bind_eq_bind, Option.bind_some, Option.pure_def]
  rfl

theorem foldlM_packageLines (parts : BatchParts journal) (plain : PlainBatch journal)
    (scan : BatchScan) (rest : List PackageEntry) (within : rest ⊆ journal.packages)
    (count : scan.packages.length + rest.length = journal.package_count) :
    ((rest.zipIdx scan.packages.length).map packageLine).foldlM parseLine scan =
      (rest.mapM normalizeEntry).map fun read =>
        { scan with packages := scan.packages ++ read } := by
  induction rest generalizing scan with
  | nil => simp
  | cons entry rest induction =>
    obtain ⟨member, within⟩ := List.cons_subset.mp within
    rw [List.length_cons] at count
    have package_max := parts.package_max
    have read := parsePackageLine_line (entryParts (parts.packages entry member))
      (plain entry member) scan.packages.length (by omega) package_max
    obtain ⟨value, line_eq⟩ := packageLine_eq (entry, scan.packages.length)
    rw [List.zipIdx_cons, List.map_cons, List.foldlM_cons, line_eq, parseLine_package, ← line_eq,
      read, List.mapM_cons]
    cases normalizeEntry entry with
    | none => rfl
    | some normalized =>
      have next := induction { scan with packages := scan.packages ++ [normalized] } within
        (by simp only [List.length_append, List.length_singleton]; omega)
      rw [List.length_append, List.length_singleton] at next
      rw [Option.map_some, Option.bind_eq_bind, Option.bind_some, next, Option.bind_eq_bind,
        Option.bind_some]
      cases rest.mapM normalizeEntry <;> simp

theorem lastLineStart_text (journal : BatchJournal) :
    lastLineStart (journalText journal) (ascii "CHECKSUM=") = some (journalBody journal).length := by
  have last := checksumLine_safe (journalBody journal)
  have visible : Visible (checksumLine (journalBody journal)) := by
    have key : KeyText (ascii "CHECKSUM=") := by decide
    exact key.visible.append (decimal_headerValue _).visible
  obtain ⟨front, body⟩ : ∃ front, journalBody journal = front ++ [newline] := by
    have nonempty : bodyLines journal ≠ [] := by simp [bodyLines, headerFields]
    rw [journalBody, ← List.dropLast_append_getLast nonempty, unlines_append, unlines_cons,
      unlines_nil, ← List.append_assoc]
    exact ⟨_, rfl⟩
  have nonempty : checksumLine (journalBody journal) ≠ [] := by simp [checksumLine, ascii]
  have ended : trimLine (journalText journal) =
      journalBody journal ++ checksumLine (journalBody journal) := by
    rw [journalText, ← List.append_assoc, trimLine_newline, trimLine_append_visible _ visible nonempty]
  have absent := lastIndexOf_eq_none [] last.unbroken
  have found : lastIndexOf [newline] (journalBody journal ++ checksumLine (journalBody journal)) =
      some front.length := by
    have behind : lastIndexOf [newline] (newline :: checksumLine (journalBody journal)) = some 0 := by
      simp [lastIndexOf, absent, startsWith]
    have shifted := lastIndexOf_append front behind
    rw [body] at shifted ⊢
    simpa using shifted
  have length : front.length + 1 = (journalBody journal).length := by
    rw [body, List.length_append, List.length_singleton]
  have marked : startsWith (checksumLine (journalBody journal)) (ascii "CHECKSUM=") = true :=
    startsWith_append _ _
  simp [lastLineStart, ended, found, length, marked]

theorem headerFields_keys (journal : BatchJournal) :
    ∀ field ∈ headerFields journal, KeyText field.1 := by
  simp only [headerFields, List.forall_mem_cons]
  decide

theorem headerFields_values (parts : BatchParts journal) :
    ∀ field ∈ headerFields journal, Visible field.2 := by
  simp only [headerFields, List.forall_mem_cons, List.not_mem_nil, false_imp_iff, implies_true,
    and_true]
  exact ⟨by decide, (decimal_fieldValue _).visible, (decimal_fieldValue _).visible,
    (phase_fieldValue _).visible, (semanticVersion_fieldValue parts.source).visible,
    (semanticVersion_fieldValue parts.target).visible, (decimal_fieldValue _).visible,
    (decimal_fieldValue _).visible, reason_visible parts.reason⟩

theorem headerLines_visible (parts : BatchParts journal) :
    ∀ line ∈ (headerFields journal).map keyed, Visible line := by
  intro line member
  obtain ⟨field, field_mem, rfl⟩ := List.mem_map.mp member
  exact (headerFields_keys journal field field_mem).visible.append
    (headerFields_values parts field field_mem)

theorem bodyLines_visible (parts : BatchParts journal) (plain : PlainBatch journal) :
    ∀ line ∈ bodyLines journal, Visible line := by
  intro line member
  rcases List.mem_append.mp member with member | member
  · exact headerLines_visible parts line member
  · obtain ⟨⟨entry, index⟩, indexed_mem, rfl⟩ := List.mem_map.mp member
    have entry_mem := List.fst_mem_of_mem_zipIdx indexed_mem
    exact fieldLine_visible (by decide) (packageFields_keys _)
      (packageFields_values (entryParts (parts.packages entry entry_mem))
        (plain entry entry_mem) index)

theorem map_trimLine_visible {texts : List Bytes} (visible : ∀ line ∈ texts, Visible line) :
    texts.map trimLine = texts := by
  rw [List.map_congr_left fun line member => trimLine_visible (visible line member), List.map_id']

/-- The lines of the body are the rendered ones and the empty rest. -/
theorem bodyLines_read (parts : BatchParts journal) (plain : PlainBatch journal) :
    ((journalBody journal).splitOn newline).map trimLine = bodyLines journal ++ [[]] := by
  have visible := bodyLines_visible parts plain
  have pieces := splitOn_unlines_append (fun line member => (visible line member).newline_not_mem) []
  rw [List.append_nil] at pieces
  rw [journalBody, pieces, List.map_append, map_trimLine_visible visible]
  rfl

theorem foldlM_bodyLines (parts : BatchParts journal) (plain : PlainBatch journal) :
    (bodyLines journal ++ [[]]).foldlM parseLine {} =
      (journal.packages.mapM normalizeEntry).map fun packages =>
        { headerScan journal with packages } := by
  have packages := foldlM_packageLines parts plain (headerScan journal) journal.packages
    (List.Subset.refl _) (Nat.zero_add _)
  have start : (headerScan journal).packages = [] := rfl
  rw [start, List.length_nil] at packages
  rw [bodyLines, List.foldlM_append, List.foldlM_append, foldlM_headerLines parts,
    Option.bind_eq_bind, Option.bind_some, packages]
  cases journal.packages.mapM normalizeEntry <;> rfl

theorem journalValid_slot (inside : slot ≤ 1) (valid : journalValid journal = true) :
    journalValid { journal with slot := slot } = true := by
  have entries : entryValid { journal with slot := slot } = entryValid journal := rfl
  have count : BatchJournal.package_count { journal with slot := slot } = journal.package_count := rfl
  unfold journalValid at valid ⊢
  rw [entries, count]
  simp only [Bool.and_eq_true, decide_eq_true_eq] at valid ⊢
  tauto

theorem length_mapM_normalizeEntry {entries read : List PackageEntry}
    (normalized : entries.mapM normalizeEntry = some read) : read.length = entries.length := by
  induction entries generalizing read with
  | nil => simpa using normalized.symm
  | cons entry entries induction =>
    simp only [List.mapM_cons, Option.bind_eq_bind, Option.bind_eq_some_iff, Option.pure_def,
      Option.some.injEq] at normalized
    obtain ⟨first, -, rest, rest_eq, rfl⟩ := normalized
    rw [List.length_cons, List.length_cons, induction rest_eq]

theorem parseJournalInto_plain (inside : slot ≤ 1)
    (valid : journalValid journal = true) (plain : PlainBatch journal)
    (room : (journalText journal).length ≤ journal_max) :
    parseJournalInto (journalText journal) slot =
      (journal.packages.mapM normalizeEntry).bind fun packages =>
        if journalValid { journal with slot, packages } then
          some { journal with slot, packages }
        else none := by
  have parts := batchParts valid
  have opened : slot ≤ 1 ∧ journalText journal ≠ [] ∧ (journalText journal).length ≤ journal_max :=
    ⟨inside, by simp [journalText], room⟩
  have rest : (journalText journal).drop (journalBody journal).length =
      checksumLine (journalBody journal) ++ [newline] := List.drop_left
  have visible : Visible (checksumLine (journalBody journal)) := by
    have key : KeyText (ascii "CHECKSUM=") := by decide
    exact key.visible.append (decimal_headerValue _).visible
  have digits : (checksumLine (journalBody journal)).drop (ascii "CHECKSUM=").length =
      decimal (checksum (journalBody journal)).toNat := List.drop_left
  have body : (journalText journal).take (journalBody journal).length = journalBody journal :=
    List.take_left
  simp only [parseJournalInto, guard_of opened, lastLineStart_text, rest, trimLine_newline,
    trimLine_visible visible, digits, parseU32_toNat, body, guard_of, bodyLines_read parts plain,
    foldlM_bodyLines parts plain, Option.bind_eq_bind, Option.bind_some, Option.pure_def]
  cases normalized : journal.packages.mapM normalizeEntry with
  | none => rfl
  | some packages =>
    have counted : packages.length = journal.package_count :=
      length_mapM_normalizeEntry normalized
    have finished : BatchScan.journal { headerScan journal with packages } slot =
        some { journal with slot, packages } := by
      simp [BatchScan.journal, headerScan, guard_of, counted, parts.valid]
    rw [Option.map_some, Option.bind_some, finished, Option.bind_some, Option.bind_some]
    split
    · next accepted => rw [guard_of accepted, Option.bind_some]
    · next refused => simp [guard, if_neg refused, failure]

theorem mapM_normalizeEntry_eq_self {entries : List PackageEntry} :
    entries.mapM normalizeEntry = some entries ↔ ∀ entry ∈ entries, NormalPath entry.path := by
  induction entries with
  | nil => simp
  | cons entry entries induction =>
    rw [List.mapM_cons, List.forall_mem_cons, ← induction, ← normalizeEntry_eq_self]
    cases normalizeEntry entry <;> cases entries.mapM normalizeEntry <;> simp

theorem parseJournalInto_journalText (inside : slot ≤ 1)
    (valid : journalValid journal = true) (canonical : CanonicalBatch journal)
    (room : (journalText journal).length ≤ journal_max) :
    parseJournalInto (journalText journal) slot = some { journal with slot := slot } := by
  rw [parseJournalInto_plain inside valid canonical.plain room,
    mapM_normalizeEntry_eq_self.mpr canonical, Option.bind_some]
  exact if_pos (journalValid_slot inside valid)

theorem phaseText_length (phase : Phase) : phase.text.length ≤ 15 := by cases phase <;> decide

theorem installModeText_length : mode.text.length ≤ 7 := by
  cases mode <;> decide

theorem priorityText_length : priority.text.length ≤ 10 := by
  cases priority <;> decide

theorem packageLine_length {entry : PackageEntry} (parts : EntryParts journal entry)
    (normal : NormalPath entry.path) {index : Nat} (small : index < 2 ^ 32)
    (few : journal.package_count ≤ max_packages) :
    (packageLine (entry, index)).length ≤ 1400 := by
  have order := parts.order
  have max_eq : max_packages = 16 := rfl
  have within : ValuesWithin (packageFields (entry, index))
      [10, 10, 1023, 48, 24, 24, 20, 10, 10, 10, 7, 10] := by
    simp only [ValuesWithin, packageFields, List.map_cons, List.map_nil, List.forall₂_cons,
      List.forall₂_nil_left_iff, and_true]
    exact ⟨decimal_length_u32 small, decimal_length_u32 (by omega), normal.length_le,
      token_length parts.package, semanticVersion_length parts.version,
      semanticVersion_length parts.release, decimal_length_u64 _,
      decimal_length_u32 (UInt32.toNat_lt _), decimal_length_u32 (UInt32.toNat_lt _),
      decimal_length_u32 (UInt32.toNat_lt _), installModeText_length _, priorityText_length _⟩
  have keys : keysLength (packageFields (entry, index)) = 106 := by
    simp only [keysLength, packageFields, List.map_cons, List.map_nil]
    decide
  have total := fieldLine_length_le (ascii "PACKAGE") within
  rw [keys] at total
  exact Nat.le_trans total (by decide)

theorem packageLines_length (parts : BatchParts journal) (canonical : CanonicalBatch journal) :
    (unlines (journal.packages.zipIdx.map packageLine)).length ≤ 16 * 1401 := by
  have package_max := parts.package_max
  have max_eq : max_packages = 16 := rfl
  have few : (journal.packages.zipIdx.map packageLine).length ≤ 16 := by
    rw [List.length_map, List.length_zipIdx]
    exact package_max
  refine unlines_length few fun line member => ?_
  obtain ⟨⟨entry, index⟩, indexed_mem, rfl⟩ := List.mem_map.mp member
  have inside : index < journal.package_count := List.snd_lt_of_mem_zipIdx indexed_mem
  have entry_mem := List.fst_mem_of_mem_zipIdx indexed_mem
  exact packageLine_length (entryParts (parts.packages entry entry_mem))
    (canonical entry entry_mem) (by omega) package_max

theorem headerLines_length (parts : BatchParts journal) :
    (unlines ((headerFields journal).map keyed)).length ≤ 400 := by
  have package_max : journal.package_count ≤ 16 := parts.package_max
  have current_le := parts.current_le
  have within : ValuesWithin (headerFields journal) [1, 20, 20, 15, 24, 24, 10, 10, 64] := by
    simp only [ValuesWithin, headerFields, List.map_cons, List.map_nil, List.forall₂_cons,
      List.forall₂_nil_left_iff, and_true]
    exact ⟨by decide, decimal_length_u64 _, decimal_length_u64 _, phaseText_length _,
      semanticVersion_length parts.source, semanticVersion_length parts.target,
      decimal_length_u32 (by omega), decimal_length_u32 (by omega), reason_length parts.reason⟩
  have keys : keysLength (headerFields journal) = 123 := by
    simp only [keysLength, headerFields, List.map_cons, List.map_nil]
    decide
  have total := unlines_keyed_length_le within
  rw [keys] at total
  exact Nat.le_trans total (by decide)

/-- A valid batch journal with normal paths fits a slot. -/
theorem journalText_length (valid : journalValid journal = true)
    (canonical : CanonicalBatch journal) : (journalText journal).length ≤ journal_max := by
  have parts := batchParts valid
  have header := headerLines_length parts
  have packages := packageLines_length parts canonical
  have digest : (checksumLine (journalBody journal)).length ≤ 19 := by
    have digits := decimal_length_u32 (checksum (journalBody journal)).toNat_lt
    have marker : (ascii "CHECKSUM=").length = 9 := rfl
    rw [checksumLine, List.length_append]
    omega
  have body : (journalBody journal).length ≤ 400 + 16 * 1401 := by
    rw [journalBody, bodyLines, unlines_append, List.length_append]
    omega
  have max_eq : journal_max = 65536 := rfl
  rw [journalText, List.length_append, List.length_append, List.length_singleton]
  omega

end Text

end Batch
end R4OS.Update
