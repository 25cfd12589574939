import R4OS.Update.JournalText
import Mathlib.Tactic.NormNum

/-!
# The journal text round trip

Every valid journal whose paths are in normal form is read back from its text, field by field.
-/

namespace R4OS.Update

open Text

variable {byte : UInt8} {path : Bounded max_path} {journal : TransactionJournal}
  {component : JournalComponent} {entry : JournalPayload} {key line : Bytes}

/-- A text without control bytes. -/
def Visible (value : Bytes) : Prop := ∀ byte ∈ value, chr ' ' ≤ byte

instance (value : Bytes) : Decidable (Visible value) := List.decidableBAll _ value

/-- A header value: no control bytes, and no blank at its end. -/
structure HeaderValue (value : Bytes) : Prop where
  visible : Visible value
  ends : value.getLast? ≠ some (chr ' ')

structure FieldValue (value : Bytes) : Prop where
  visible : Visible value
  plain : semicolon ∉ value

theorem Visible.append {front back : Bytes} (front_visible : Visible front)
    (back_visible : Visible back) : Visible (front ++ back) := by
  intro byte member
  rcases List.mem_append.mp member with member | member
  · exact front_visible byte member
  · exact back_visible byte member

theorem Visible.newline_not_mem {value : Bytes} (visible : Visible value) : newline ∉ value :=
  fun member => absurd (visible newline member) (by decide)

theorem isBlank_eq_false (visible : chr ' ' ≤ byte) (solid : byte ≠ chr ' ') :
    isBlank byte = false := by
  simp only [isBlank, Bool.or_eq_false_iff, beq_eq_false_iff_ne]
  refine ⟨⟨⟨solid, ?_⟩, ?_⟩, ?_⟩ <;> rintro rfl <;> exact absurd visible (by decide)

theorem Visible.trimmed {value : Bytes} (visible : Visible value)
    (starts : value.head? ≠ some (chr ' ')) (ends : value.getLast? ≠ some (chr ' ')) :
    Trimmed value := by
  constructor
  · intro byte member
    refine isBlank_eq_false (visible byte (List.mem_of_mem_head? member)) ?_
    rintro rfl
    exact starts member
  · intro byte member
    refine isBlank_eq_false (visible byte (List.mem_of_getLast? member)) ?_
    rintro rfl
    exact ends member

theorem digit_visible (digit : isDigit byte = true) : chr ' ' < byte := by
  simp only [isDigit, Bool.and_eq_true, decide_eq_true_eq] at digit
  exact UInt8.lt_of_lt_of_le (by decide) digit.1

theorem HeaderValue.of_solid {value : Bytes} (solid : ∀ byte ∈ value, chr ' ' < byte) :
    HeaderValue value where
  visible byte member := UInt8.le_of_lt (solid byte member)
  ends := by
    intro blank
    exact absurd (solid _ (List.mem_of_getLast? blank)) (by decide)

theorem decimal_solid (value : Nat) : ∀ byte ∈ decimal value, chr ' ' < byte :=
  fun _ member => digit_visible (decimal_isDigit member)

theorem decimal_headerValue (value : Nat) : HeaderValue (decimal value) :=
  .of_solid (decimal_solid value)

theorem decimal_fieldValue (value : Nat) : FieldValue (decimal value) where
  visible := (decimal_headerValue value).visible
  plain member := absurd (decimal_isDigit member) (by decide)

theorem boolDigit_fieldValue (value : Bool) : FieldValue (boolDigit value) := by
  cases value <;> exact ⟨by decide, by decide⟩

theorem yesNo_headerValue (value : Bool) : HeaderValue (yesNo value) := by
  cases value <;> exact ⟨by decide, by decide⟩

theorem phaseName_headerValue (phase : JournalPhase) : HeaderValue (phaseName phase) := by
  cases phase <;> exact ⟨by decide, by decide⟩

theorem kindText_fieldValue (kind : JournalComponentKind) : FieldValue kind.text := by
  cases kind <;> exact ⟨by decide, by decide⟩

theorem PlainPath.headerValue {path : Bytes} (plain : PlainPath path) : HeaderValue path where
  visible byte member := (plain.1 byte member).1
  ends := plain.2

theorem PlainPath.fieldValue {path : Bytes} (plain : PlainPath path) : FieldValue path where
  visible byte member := (plain.1 byte member).1
  plain member := (plain.1 _ member).2 rfl

theorem versionStep_byte {state next : Nat × Nat}
    (step : versionStep state byte = some next) : isDigit byte = true ∨ byte = chr '.' := by
  unfold versionStep at step
  split at step
  · exact .inl ‹_›
  split at step
  · rename_i dot
    exact .inr dot.1
  · cases step

theorem foldlM_versionStep_byte {state final : Nat × Nat} {value : Bytes}
    (scan : value.foldlM versionStep state = some final) :
    ∀ byte ∈ value, isDigit byte = true ∨ byte = chr '.' := by
  induction value generalizing state with
  | nil => simp
  | cons head value induction =>
    rw [List.foldlM_cons, Option.bind_eq_bind, Option.bind_eq_some_iff] at scan
    obtain ⟨next, step, rest⟩ := scan
    intro byte member
    rcases List.mem_cons.mp member with rfl | member
    · exact versionStep_byte step
    · exact induction rest byte member

theorem version_byte {value : Bytes} (valid : versionTextValid value = true) :
    ∀ byte ∈ value, isDigit byte = true ∨ byte = chr '.' := by
  simp only [versionTextValid, Bool.and_eq_true, Option.any_eq_true] at valid
  obtain ⟨-, state, scan, -⟩ := valid
  exact foldlM_versionStep_byte scan

theorem version_headerValue {value : Bytes} (valid : versionTextValid value = true) :
    HeaderValue value := by
  apply HeaderValue.of_solid
  intro byte member
  rcases version_byte valid byte member with digit | rfl
  · exact digit_visible digit
  · decide

theorem version_fieldValue {value : Bytes} (valid : versionTextValid value = true) :
    FieldValue value where
  visible := (version_headerValue valid).visible
  plain member := by
    rcases version_byte valid semicolon member with digit | dot
    · exact absurd digit (by decide)
    · exact absurd dot (by decide)

theorem version_length {value : Bytes} (valid : versionTextValid value = true) :
    value.length < max_version := by
  simp only [versionTextValid, Bool.and_eq_true, decide_eq_true_eq] at valid
  exact valid.1.2

theorem componentToken_fieldValue {value : Bytes} (valid : componentTokenValid value = true) :
    FieldValue value := by
  simp only [componentTokenValid, Bool.and_eq_true, List.all_eq_true, decide_eq_true_eq] at valid
  constructor
  · intro byte member
    exact UInt8.le_of_lt (valid.2 byte member).1.1
  · intro member
    exact absurd (valid.2 _ member).2 (by decide)

theorem componentTarget_fieldValue {value : Bytes} (valid : value.all componentTargetByte = true) :
    FieldValue value := by
  simp only [componentTargetByte, List.all_eq_true, Bool.and_eq_true, decide_eq_true_eq] at valid
  constructor
  · intro byte member
    exact (valid byte member).1.1
  · intro member
    exact absurd (valid _ member).2 (by decide)

theorem trim_decimal (value : Nat) : trim (decimal value) = decimal value :=
  (decimal_trimmed value).trim_eq

theorem parseU64_decimal (value : UInt64) : parseU64 (decimal value.toNat) = some value := by
  have bounded : value.toNat ≤ 2 ^ 64 - 1 := by have := value.toNat_lt; omega
  rw [parseU64, trim_decimal, parseDecimal_decimal bounded, Option.map_some, UInt64.ofNat_toNat]

theorem parseU32_decimal {value : Nat} (small : value < 2 ^ 32) :
    parseU32 (decimal value) = some (UInt32.ofNat value) := by
  have bounded : value ≤ 2 ^ 64 - 1 := by omega
  rw [parseU32, trim_decimal, parseDecimal_decimal bounded]
  exact if_pos small

theorem parseU32_toNat (value : UInt32) : parseU32 (decimal value.toNat) = some value := by
  rw [parseU32_decimal value.toNat_lt, UInt32.ofNat_toNat]

theorem parseBool01_boolDigit (value : Bool) : parseBool01 (boolDigit value) = some value := by
  cases value <;> decide

theorem parseYesNo_yesNo (value : Bool) : parseYesNo (yesNo value) = some value := by
  cases value <;> decide

theorem parsePhase_phaseName (phase : JournalPhase) : parsePhase (phaseName phase) = some phase := by
  cases phase <;> decide

theorem parseKind_text (kind : JournalComponentKind) :
    JournalComponentKind.parse kind.text = some kind := by
  cases kind <;> decide

/-- A path text that is its own normal form. -/
def NormalPath (path : Bounded max_path) : Prop :=
  normalizeAbsolutePath max_path path.bytes = some path

/-- The paths of a payload are in normal form; an absent previous backup is empty. -/
structure CanonicalPayload (entry : JournalPayload) : Prop where
  target : NormalPath entry.target_path
  stage : NormalPath entry.stage_path
  backup : NormalPath entry.backup_path
  previous : entry.previous_backup_path.bytes = [] ∨ NormalPath entry.previous_backup_path

/-- All path texts of a journal are in normal form. -/
structure CanonicalJournal (journal : TransactionJournal) : Prop where
  source : NormalPath journal.source_path
  payloads : ∀ entry ∈ journal.payloads, CanonicalPayload entry

/-- No payload carries the size or checksum of an old file whose fingerprint is unknown. -/
def UnknownOldZero (journal : TransactionJournal) : Prop :=
  ∀ entry ∈ journal.payloads, entry.old_known = false → entry.old_size = 0 ∧ entry.old_checksum = 0

theorem NormalPath.plain (normal : NormalPath path) :
    PlainPath path.bytes := (normalizeAbsolutePath_plain normal).1

theorem NormalPath.length (normal : NormalPath path) :
    path.bytes.length < max_path := (normalizeAbsolutePath_plain normal).2.2

structure ValidParts (journal : TransactionJournal) : Prop where
  header : headerValid journal = true
  components : journal.components_bound = true → componentsValid journal = true
  payloads : ∀ entry ∈ journal.payloads, payloadValid entry = true

theorem validParts (valid : journalValid journal = true) :
    ValidParts journal := by
  simp only [journalValid, Bool.and_eq_true, Bool.or_eq_true, Bool.not_eq_true',
    List.all_eq_true] at valid
  obtain ⟨⟨⟨⟨⟨⟨⟨⟨⟨header, -⟩, -⟩, -⟩, components⟩, payloads⟩, -⟩, -⟩, -⟩, -⟩ := valid
  refine ⟨header, ?_, payloads⟩
  intro bound
  simpa [bound] using components

/-- The header rules of a valid journal. -/
structure HeaderParts (journal : TransactionJournal) : Prop where
  valid : journal.valid = true
  transaction_generation : journal.transaction_generation ≠ 0
  journal_generation : journal.journal_generation ≠ 0
  package_nonzero : journal.package_payload_count ≠ 0
  package_max : journal.package_payload_count ≤ max_package_payloads
  payload_nonzero : journal.payload_count ≠ 0
  payload_max : journal.payload_count ≤ max_payloads
  package_le : journal.package_payload_count ≤ journal.payload_count
  payload_le : journal.payload_count ≤ journal.package_payload_count + (if journal.batch then 2 else 1)
  committed_le : journal.committed_count ≤ journal.payload_count
  rollback_le : journal.rollback_count ≤ journal.payload_count
  component_le : journal.component_count ≤ journal.package_payload_count
  source_version : versionTextValid journal.source_version.bytes = true
  target_version : versionTextValid journal.target_version.bytes = true
  package_version : versionTextValid journal.package_version.bytes = true

theorem headerParts (valid : headerValid journal = true) :
    HeaderParts journal := by
  simp only [headerValid, Bool.and_eq_true, decide_eq_true_eq, bne_iff_ne] at valid
  obtain ⟨⟨⟨⟨⟨⟨⟨⟨⟨⟨⟨⟨⟨⟨⟨⟨valid, -⟩, transaction⟩, generation⟩, -⟩, package_nonzero⟩, package_max⟩,
    payload_nonzero⟩, payload_max⟩, package_le⟩, payload_le⟩, committed_le⟩, rollback_le⟩,
    component_le⟩, source⟩, target⟩, package⟩ := valid
  exact ⟨valid, transaction, generation, package_nonzero, package_max, payload_nonzero, payload_max,
    package_le, payload_le, committed_le, rollback_le, component_le, source, target, package⟩

/-- The rules of one bound component. -/
structure ComponentParts (journal : TransactionJournal) (component : JournalComponent) : Prop where
  payload : component.payload_index.toNat < journal.package_payload_count
  valid : componentValid component = true
  name : componentTokenValid component.name.bytes = true
  version : versionTextValid component.version.bytes = true
  target_length : component.target.bytes.length < max_path
  target : component.target.bytes.all componentTargetByte = true

theorem componentParts (valid : componentsValid journal = true) (member : component ∈ journal.components) :
    ComponentParts journal component := by
  simp only [componentsValid, Bool.and_eq_true, List.all_eq_true, decide_eq_true_eq] at valid
  obtain ⟨payload, parts⟩ := valid.1 component member
  have whole := parts
  simp only [componentValid, Bool.and_eq_true, decide_eq_true_eq] at parts
  obtain ⟨⟨⟨⟨⟨⟨⟨name, version⟩, -⟩, target_length⟩, -⟩, -⟩, target⟩, -⟩ := parts
  exact ⟨payload, whole, name, version, target_length, target⟩

theorem headerFields_values (header : HeaderParts journal) (canonical : CanonicalJournal journal) :
    ∀ field ∈ headerFields journal, HeaderValue field.2 := by
  simp only [headerFields, List.forall_mem_cons, List.not_mem_nil, false_imp_iff, implies_true,
    and_true]
  refine ⟨?_, decimal_headerValue _, decimal_headerValue _, phaseName_headerValue _,
    decimal_headerValue _, decimal_headerValue _, decimal_headerValue _, decimal_headerValue _,
    decimal_headerValue _, ?_, ?_, version_headerValue header.package_version,
    version_headerValue header.source_version, version_headerValue header.target_version,
    canonical.source.plain.headerValue, decimal_headerValue _, decimal_headerValue _,
    decimal_headerValue _, decimal_headerValue _, yesNo_headerValue _, yesNo_headerValue _⟩
  · exact ⟨by decide, by decide⟩
  · split <;> exact ⟨by decide, by decide⟩
  · split <;> exact ⟨by decide, by decide⟩

theorem componentFields_values (parts : ComponentParts journal component) (index : Nat) :
    ∀ field ∈ componentFields (component, index), FieldValue field.2 := by
  simp only [componentFields, List.forall_mem_cons, List.not_mem_nil, false_imp_iff, implies_true,
    and_true]
  exact ⟨decimal_fieldValue _, decimal_fieldValue _, kindText_fieldValue _,
    componentToken_fieldValue parts.name, componentTarget_fieldValue parts.target,
    version_fieldValue parts.version⟩

theorem payloadFields_values (canonical : CanonicalPayload entry)
    (index : Nat) : ∀ field ∈ payloadFields (entry, index), FieldValue field.2 := by
  have previous : FieldValue entry.previousBackupText := by
    rcases canonical.previous with empty | normal
    · rw [JournalPayload.previousBackupText, empty]
      exact ⟨by decide, by decide⟩
    · exact normal.plain.fieldValue
  simp only [payloadFields, List.forall_mem_cons, List.not_mem_nil, false_imp_iff, implies_true,
    and_true]
  exact ⟨decimal_fieldValue _, canonical.target.plain.fieldValue, canonical.stage.plain.fieldValue,
    canonical.backup.plain.fieldValue, previous, boolDigit_fieldValue _, decimal_fieldValue _,
    decimal_fieldValue _, decimal_fieldValue _, decimal_fieldValue _, boolDigit_fieldValue _,
    boolDigit_fieldValue _, decimal_fieldValue _, decimal_fieldValue _, boolDigit_fieldValue _,
    boolDigit_fieldValue _, boolDigit_fieldValue _⟩

/-- A key: nonempty and without blanks, control bytes and field separators. -/
def KeyText (key : Bytes) : Prop := key ≠ [] ∧ ∀ byte ∈ key, chr ' ' < byte ∧ byte ≠ semicolon

instance (key : Bytes) : Decidable (KeyText key) :=
  @instDecidableAnd _ _ _ (List.decidableBAll _ key)

theorem headerFields_keys (journal : TransactionJournal) :
    ∀ field ∈ headerFields journal, KeyText field.1 := by
  simp only [headerFields, List.forall_mem_cons]
  decide

theorem componentFields_keys (indexed : JournalComponent × Nat) :
    ∀ field ∈ componentFields indexed, KeyText field.1 := by
  simp only [componentFields, List.forall_mem_cons]
  decide

theorem payloadFields_keys (indexed : JournalPayload × Nat) :
    ∀ field ∈ payloadFields indexed, KeyText field.1 := by
  simp only [payloadFields, List.forall_mem_cons]
  decide

theorem KeyText.head {key : Bytes} (text : KeyText key) (rest : Bytes) :
    (key ++ rest).head? ≠ some (chr ' ') := by
  rw [List.head?_append_of_ne_nil _ text.1]
  intro blank
  exact absurd (text.2 _ (List.mem_of_mem_head? blank)).1 (by decide)

theorem KeyText.visible (text : KeyText key) : Visible key :=
  fun byte member => UInt8.le_of_lt (text.2 byte member).1

theorem KeyText.plain (text : KeyText key) : semicolon ∉ key :=
  fun member => (text.2 _ member).2 rfl

/-- A line that is cut and trimmed back to itself. -/
structure SafeLine (line : Bytes) : Prop where
  unbroken : newline ∉ line
  trimmed : Trimmed line

theorem KeyText.ends {value : Bytes} (text : KeyText key)
    (ends : value.getLast? ≠ some (chr ' ')) : (key ++ value).getLast? ≠ some (chr ' ') := by
  by_cases empty : value = []
  · subst empty
    rw [List.append_nil]
    intro blank
    exact absurd (text.2 _ (List.mem_of_getLast? blank)).1 (by decide)
  · rwa [List.getLast?_append_of_ne_nil _ empty]

theorem keyed_safe {field : Bytes × Bytes} (key : KeyText field.1) (value : HeaderValue field.2) :
    SafeLine (keyed field) := by
  have visible : Visible (keyed field) := key.visible.append value.visible
  exact ⟨visible.newline_not_mem, visible.trimmed (key.head _) (key.ends value.ends)⟩

theorem fieldLine_visible {tag : Bytes} {fields : List (Bytes × Bytes)} (tag_key : KeyText tag)
    (keys : ∀ field ∈ fields, KeyText field.1) (values : ∀ field ∈ fields, FieldValue field.2) :
    Visible (fieldLine tag fields) := by
  rw [fieldLine_eq]
  refine tag_key.visible.append ?_
  intro byte member
  obtain ⟨field, field_mem, byte_mem⟩ := List.mem_flatMap.mp member
  rcases List.mem_cons.mp byte_mem with rfl | byte_mem
  · decide
  · exact (keys field field_mem).visible.append (values field field_mem).visible byte byte_mem

theorem fieldLine_safe {tag : Bytes} {fields : List (Bytes × Bytes)} {last : Bytes × Bytes}
    (tag_key : KeyText tag) (keys : ∀ field ∈ fields ++ [last], KeyText field.1)
    (values : ∀ field ∈ fields ++ [last], FieldValue field.2)
    (ends : last.2.getLast? ≠ some (chr ' ')) : SafeLine (fieldLine tag (fields ++ [last])) := by
  have visible := fieldLine_visible tag_key keys values
  refine ⟨visible.newline_not_mem, visible.trimmed ?_ ?_⟩
  · rw [fieldLine_eq]
    exact tag_key.head _
  · have last_key : KeyText last.1 := keys last (by simp)
    rw [fieldLine_concat, List.getLast?_append_of_ne_nil _ (List.cons_ne_nil _ _)]
    have nonempty : keyed last ≠ [] := by simp [keyed, last_key.1]
    rw [List.getLast?_cons_of_ne_nil nonempty]
    exact last_key.ends ends

theorem componentLine_safe (parts : ComponentParts journal component) (index : Nat) :
    SafeLine (componentLine (component, index)) := by
  have split : componentFields (component, index) =
      (componentFields (component, index)).dropLast ++
        [(ascii "version=", component.version.bytes)] := rfl
  rw [componentLine, split]
  refine fieldLine_safe (by decide) ?_ ?_ (version_headerValue parts.version).ends
  · exact split ▸ componentFields_keys _
  · exact split ▸ componentFields_values parts index

theorem payloadLine_safe (canonical : CanonicalPayload entry)
    (index : Nat) : SafeLine (payloadLine (entry, index)) := by
  have split : payloadFields (entry, index) =
      (payloadFields (entry, index)).dropLast ++
        [(ascii "rolled_back=", boolDigit entry.rolled_back)] := rfl
  rw [payloadLine, split]
  refine fieldLine_safe (by decide) ?_ ?_ ?_
  · exact split ▸ payloadFields_keys _
  · exact split ▸ payloadFields_values canonical index
  · cases entry.rolled_back <;> decide

section Body

variable {journal : TransactionJournal}

theorem componentLines_safe (valid : journalValid journal = true) :
    ∀ line ∈ componentLines journal, SafeLine line := by
  intro line member
  unfold componentLines at member
  split at member
  · rename_i bound
    obtain ⟨⟨component, index⟩, indexed_mem, rfl⟩ := List.mem_map.mp member
    have component_mem := List.fst_mem_of_mem_zipIdx indexed_mem
    exact componentLine_safe (componentParts ((validParts valid).components bound) component_mem)
      index
  · simp at member

theorem payloadLines_safe (canonical : CanonicalJournal journal) :
    ∀ line ∈ payloadLines journal, SafeLine line := by
  intro line member
  obtain ⟨⟨entry, index⟩, indexed_mem, rfl⟩ := List.mem_map.mp member
  exact payloadLine_safe (canonical.payloads entry (List.fst_mem_of_mem_zipIdx indexed_mem)) index

theorem bodyLines_safe (valid : journalValid journal = true) (canonical : CanonicalJournal journal) :
    ∀ line ∈ bodyLines journal, SafeLine line := by
  intro line member
  rw [bodyLines, List.mem_append, List.mem_append] at member
  rcases member with (member | member) | member
  · obtain ⟨field, field_mem, rfl⟩ := List.mem_map.mp member
    exact keyed_safe (headerFields_keys journal field field_mem)
      (headerFields_values (headerParts (validParts valid).header) canonical field field_mem)
  · exact componentLines_safe valid line member
  · exact payloadLines_safe canonical line member

theorem checksumLine_safe (body : Bytes) : SafeLine (checksumLine body) := by
  have key : KeyText (ascii "CHECKSUM=") := by decide
  have safe : SafeLine (keyed (ascii "CHECKSUM=", decimal (checksum body).toNat)) :=
    keyed_safe key (decimal_headerValue _)
  exact safe

theorem map_trim_safe {texts : List Bytes} (safe : ∀ line ∈ texts, SafeLine line) :
    texts.map trim = texts := by
  rw [List.map_congr_left (fun line member => (safe line member).trimmed.trim_eq), List.map_id']

theorem bodyLines_read (valid : journalValid journal = true) (canonical : CanonicalJournal journal) :
    (lines (journalBody journal)).map trim = bodyLines journal := by
  have safe := bodyLines_safe valid canonical
  rw [journalBody, lines_unlines fun line member => (safe line member).unbroken]
  exact map_trim_safe safe

theorem textLines_read (valid : journalValid journal = true) (canonical : CanonicalJournal journal) :
    (lines (journalText journal)).map trim =
      bodyLines journal ++ [checksumLine (journalBody journal)] := by
  have safe := bodyLines_safe valid canonical
  have last := checksumLine_safe (journalBody journal)
  have last_lines : lines (checksumLine (journalBody journal) ++ [newline]) =
      [checksumLine (journalBody journal)] := lines_cons last.unbroken
  rw [journalText, journalBody, lines_unlines_append fun line member => (safe line member).unbroken]
  rw [← journalBody, last_lines]
  apply map_trim_safe
  intro line member
  rcases List.mem_append.mp member with member | member
  · exact safe line member
  · exact List.mem_singleton.mp member ▸ last

end Body

theorem guard_of {condition : Prop} [Decidable condition] (holds : condition) :
    (guard condition : Option Unit) = some () := if_pos holds

theorem lastIndexOf_checksumLine (body : Bytes) :
    lastIndexOf (ascii "CHECKSUM=") (checksumLine body ++ [newline]) = some 0 := by
  have digits_absent : chr 'C' ∉ decimal (checksum body).toNat ++ [newline] := by
    intro member
    rcases List.mem_append.mp member with member | member
    · exact absurd (decimal_isDigit member) (by decide)
    · exact absurd (List.mem_singleton.mp member) (by decide)
  have marker : ascii "CHECKSUM=" = [67, 72, 69, 67, 75, 83, 85, 77, 61] := by decide
  rw [checksumLine, List.append_assoc, marker]
  have tail := lastIndexOf_eq_none [72, 69, 67, 75, 83, 85, 77, 61] digits_absent
  generalize decimal (checksum body).toNat ++ [newline] = rest at tail ⊢
  have letter : chr 'C' = 67 := by decide
  rw [letter] at tail
  simp [lastIndexOf, tail, startsWith, List.isPrefixOf]

theorem checksummedBody_journalText (journal : TransactionJournal) :
    checksummedBody (journalText journal) = some (journalBody journal) := by
  have last := checksumLine_safe (journalBody journal)
  have found : lastIndexOf (ascii "CHECKSUM=") (journalText journal) =
      some (journalBody journal).length :=
    lastIndexOf_append (journalBody journal) (lastIndexOf_checksumLine _)
  have separated : (journalBody journal).length = 0 ∨
      (journalText journal)[(journalBody journal).length - 1]? = some newline := by
    by_cases empty : journalBody journal = []
    · exact .inl (by simp [empty])
    · right
      have ends : (journalBody journal).getLast? = some newline := by
        have nonempty : bodyLines journal ≠ [] := by simp [bodyLines, headerFields]
        rw [journalBody, ← List.dropLast_append_getLast nonempty, unlines_append]
        simp
      have inside : (journalBody journal).length - 1 < (journalBody journal).length := by
        have := List.length_pos_of_ne_nil empty
        omega
      rw [journalText, List.getElem?_append_left inside, ← List.getLast?_eq_getElem?, ends]
  have rest : (journalText journal).drop (journalBody journal).length =
      checksumLine (journalBody journal) ++ [newline] := List.drop_left
  have line : (checksumLine (journalBody journal) ++ [newline]).takeWhile
      (fun byte => byte != newline) = checksumLine (journalBody journal) := by
    rw [List.takeWhile_append_of_pos]
    · simp
    · intro byte member
      simp only [bne_iff_ne, ne_eq]
      rintro rfl
      exact last.unbroken member
  have digits : (checksumLine (journalBody journal)).drop (ascii "CHECKSUM=").length =
      decimal (checksum (journalBody journal)).toNat := List.drop_left
  have body : (journalText journal).take (journalBody journal).length = journalBody journal :=
    List.take_left
  have total : (journalBody journal).length + (checksumLine (journalBody journal)).length + 1 =
      (journalText journal).length := by
    simp [journalText, Nat.add_assoc]
  rw [checksummedBody, found]
  simp only [Option.bind_eq_bind, Option.bind_some, rest, line, digits, body, parseU32_toNat,
    guard_of separated, guard_of total, guard_of, Option.pure_def]

theorem headerFields_distinct (journal : TransactionJournal) :
    KeysDistinct (headerFields journal) := by
  unfold KeysDistinct
  simp only [headerFields, List.map_cons, List.map_nil]
  decide

theorem headerFields_foreign (journal : TransactionJournal) :
    ∀ field ∈ headerFields journal, Incomparable field.1 (ascii "COMPONENT;") ∧
      Incomparable field.1 (ascii "PAYLOAD;") ∧ Incomparable field.1 (ascii "CHECKSUM=") := by
  simp only [headerFields, List.forall_mem_cons, List.not_mem_nil, false_imp_iff, implies_true,
    and_true]
  decide

theorem componentLine_eq (indexed : JournalComponent × Nat) :
    ∃ rest, componentLine indexed = ascii "COMPONENT;" ++ rest := by
  have split : ascii "COMPONENT;" = ascii "COMPONENT" ++ [semicolon] := by decide
  rw [componentLine, fieldLine_eq, split, componentFields, List.flatMap_cons]
  exact ⟨_, by rw [List.append_assoc]; rfl⟩

theorem payloadLine_eq (indexed : JournalPayload × Nat) :
    ∃ rest, payloadLine indexed = ascii "PAYLOAD;" ++ rest := by
  have split : ascii "PAYLOAD;" = ascii "PAYLOAD" ++ [semicolon] := by decide
  rw [payloadLine, fieldLine_eq, split, payloadFields, List.flatMap_cons]
  exact ⟨_, by rw [List.append_assoc]; rfl⟩

theorem componentLines_eq
    (member : line ∈ componentLines journal) : ∃ rest, line = ascii "COMPONENT;" ++ rest := by
  unfold componentLines at member
  split at member
  · obtain ⟨indexed, -, rfl⟩ := List.mem_map.mp member
    exact componentLine_eq indexed
  · simp at member

theorem payloadLines_eq
    (member : line ∈ payloadLines journal) : ∃ rest, line = ascii "PAYLOAD;" ++ rest := by
  obtain ⟨indexed, -, rfl⟩ := List.mem_map.mp member
  exact payloadLine_eq indexed

theorem header_lookup (journal : TransactionJournal) {field : Bytes × Bytes}
    (member : field ∈ headerFields journal) :
    fieldValue (bodyLines journal ++ [checksumLine (journalBody journal)]) field.1 =
      some field.2 := by
  obtain ⟨component, payload, digest⟩ := headerFields_foreign journal field member
  rw [bodyLines, List.append_assoc, List.append_assoc, fieldValue_append_foreign]
  · exact fieldValue_keyed (headerFields_distinct journal) member
  · intro line line_mem
    rw [List.mem_append, List.mem_append] at line_mem
    rcases line_mem with line_mem | line_mem | line_mem
    · obtain ⟨rest, rfl⟩ := componentLines_eq line_mem
      exact component.not_startsWith rest
    · obtain ⟨rest, rfl⟩ := payloadLines_eq line_mem
      exact payload.not_startsWith rest
    · rw [List.mem_singleton.mp line_mem]
      exact digest.not_startsWith _

def headerOf (journal : TransactionJournal) (slot : Nat) : TransactionJournal :=
  { journal with slot, components := [], payloads := [], rollback_markers_present := true }

theorem parseKeyword_bound (value : Bool) :
    parseKeyword (ascii "bound") (ascii "legacy") (if value then ascii "bound" else ascii "legacy") =
      some value := by
  cases value <;> decide

theorem parseKeyword_foundation (value : Bool) :
    parseKeyword (ascii "foundation") (ascii "normal")
      (if value then ascii "foundation" else ascii "normal") = some value := by
  cases value <;> decide

theorem copyTextZ_version {text : Bounded max_version} (valid : versionTextValid text.bytes = true) :
    copyTextZ max_version text.bytes = some text :=
  copyTextZ_bytes text (version_length valid)

theorem parseHeader_text (valid : journalValid journal = true)
    (canonical : CanonicalJournal journal) (slot : Nat) :
    parseHeader (bodyLines journal ++ [checksumLine (journalBody journal)]) slot =
      some (headerOf journal slot, journal.payload_count, journal.component_count) := by
  have header := headerParts (validParts valid).header
  have found : ∀ field ∈ headerFields journal,
      fieldValue (bodyLines journal ++ [checksumLine (journalBody journal)]) field.1 =
        some field.2 := fun field member => header_lookup journal member
  generalize bodyLines journal ++ [checksumLine (journalBody journal)] = texts at found ⊢
  simp only [headerFields, List.forall_mem_cons] at found
  obtain ⟨-, transaction, generation, phase, digest, length, manifest, component, components,
    binding, priority, package, source_release, release, source, package_payloads, payloads,
    committed, rolled_back, reboot, batch⟩ := found
  have max_eq : max_payloads = 34 := rfl
  have package_max_eq : max_package_payloads = 32 := rfl
  have payload_max := header.payload_max
  have package_max := header.package_max
  have package_le := header.package_le
  have committed_le := header.committed_le
  have rollback_le := header.rollback_le
  have component_le := header.component_le
  have small (count : Nat) (bounded : count ≤ journal.payload_count) :
      parseU32 (decimal count) = some (UInt32.ofNat count) := parseU32_decimal (by omega)
  have back (count : Nat) (bounded : count ≤ journal.payload_count) :
      (UInt32.ofNat count).toNat = count := by
    rw [UInt32.toNat_ofNat']
    omega
  have component_small : journal.component_count ≤ journal.payload_count := by omega
  have counts : (journal.transaction_generation != 0 && journal.journal_generation != 0 &&
      journal.payload_count != 0 && journal.payload_count ≤ max_payloads &&
      journal.package_payload_count != 0 && journal.package_payload_count ≤ max_package_payloads &&
      journal.package_payload_count ≤ journal.payload_count &&
      journal.payload_count ≤
        journal.package_payload_count + (if journal.batch then 2 else 1)) = true := by
    simp only [Bool.and_eq_true, decide_eq_true_eq, bne_iff_ne]
    exact ⟨⟨⟨⟨⟨⟨⟨header.transaction_generation, header.journal_generation⟩, header.payload_nonzero⟩,
      header.payload_max⟩, header.package_nonzero⟩, header.package_max⟩, header.package_le⟩,
      header.payload_le⟩
  have versions : (versionTextValid journal.source_version.bytes &&
      versionTextValid journal.target_version.bytes &&
      versionTextValid journal.package_version.bytes &&
      journal.component_count ≤ journal.package_payload_count) = true := by
    simp only [Bool.and_eq_true, decide_eq_true_eq]
    exact ⟨⟨⟨header.source_version, header.target_version⟩, header.package_version⟩, component_le⟩
  have source_normal : normalizeAbsolutePath max_path journal.sourceText =
      some journal.source_path := canonical.source
  simp only [parseHeader, transaction, generation, phase, digest, length, manifest, component,
    components, binding, priority, package, source_release, release, source, package_payloads,
    payloads, committed, rolled_back, reboot, batch, parseYesNo_yesNo, parseKeyword_foundation,
    parseKeyword_bound, parseU64_decimal, parsePhase_phaseName, parseU32_toNat,
    small _ package_le, small _ .refl, small _ committed_le, small _ rollback_le,
    small _ component_small, back _ package_le, back _ .refl, back _ committed_le,
    back _ rollback_le, back _ component_small, source_normal,
    copyTextZ_version header.source_version, copyTextZ_version header.target_version,
    copyTextZ_version header.package_version, counts, versions, guard_of,
    Option.bind_eq_bind, Option.bind_some, Option.pure_def, headerOf, header.valid]

section Fields

variable {tag : Bytes} {fields : List (Bytes × Bytes)}

/-- A rendered line that can be taken apart again. -/
structure Rendered (tag : Bytes) (fields : List (Bytes × Bytes)) : Prop where
  distinct : KeysDistinct fields
  tag_plain : semicolon ∉ tag
  fields_plain : ∀ field ∈ fields, semicolon ∉ field.1 ∧ semicolon ∉ field.2
  tag_foreign : ∀ field ∈ fields, startsWith tag field.1 = false

variable (rendered : Rendered tag fields)

include rendered

theorem Rendered.parts :
    fieldParts (fieldLine tag fields) = tag :: fields.map keyed :=
  fieldParts_fieldLine rendered.tag_plain rendered.fields_plain

theorem Rendered.occurrences {field : Bytes × Bytes} (member : field ∈ fields) :
    fieldOccurrences (fieldParts (fieldLine tag fields)) field.1 = 1 := by
  rw [rendered.parts, fieldOccurrences, List.countP_cons_of_neg]
  · exact fieldOccurrences_keyed rendered.distinct member
  · simp [rendered.tag_foreign field member]

theorem Rendered.value {field : Bytes × Bytes} (member : field ∈ fields) :
    fieldValue (fieldParts (fieldLine tag fields)) field.1 = some field.2 := by
  rw [rendered.parts, fieldValue_cons_foreign (rendered.tag_foreign field member)]
  exact fieldValue_keyed rendered.distinct member

theorem Rendered.required :
    ∀ field ∈ fields, requiredField (fieldLine tag fields) field.1 = some field.2 := by
  intro field member
  rw [requiredField, rendered.occurrences member, if_neg (by decide), rendered.value member]

theorem Rendered.optional :
    ∀ field ∈ fields, optionalField (fieldLine tag fields) field.1 = some field.2 := by
  intro field member
  rw [optionalField, rendered.occurrences member, if_neg (by decide), rendered.value member]

theorem Rendered.fieldsKnown {keys : List Bytes} (known : ∀ field ∈ fields, field.1 ∈ keys) :
    fieldsKnown tag keys (fieldLine tag fields) = true := by
  rw [Update.fieldsKnown, rendered.parts]
  simp only [beq_self_eq_true, Bool.true_and, List.all_map, List.all_eq_true, List.any_eq_true,
    Function.comp_apply]
  intro field member
  exact ⟨field.1, known field member, startsWith_append field.1 field.2⟩

end Fields

theorem payload_rendered (canonical : CanonicalPayload entry)
    (index : Nat) : Rendered (ascii "PAYLOAD") (payloadFields (entry, index)) where
  distinct := by
    unfold KeysDistinct
    simp only [payloadFields, List.map_cons, List.map_nil]
    decide
  tag_plain := by decide
  fields_plain field member :=
    ⟨(payloadFields_keys _ field member).plain, (payloadFields_values canonical index field member).plain⟩
  tag_foreign := by
    simp only [payloadFields, List.forall_mem_cons]
    decide

theorem component_rendered (parts : ComponentParts journal component) (index : Nat) :
    Rendered (ascii "COMPONENT") (componentFields (component, index)) where
  distinct := by
    unfold KeysDistinct
    simp only [componentFields, List.map_cons, List.map_nil]
    decide
  tag_plain := by decide
  fields_plain field member :=
    ⟨(componentFields_keys _ field member).plain,
      (componentFields_values parts index field member).plain⟩
  tag_foreign := by
    simp only [componentFields, List.forall_mem_cons]
    decide

theorem payloadKeys_eq (indexed : JournalPayload × Nat) :
    payloadKeys = (payloadFields indexed).map Prod.fst := rfl

theorem componentKeys_eq (indexed : JournalComponent × Nat) :
    componentKeys = (componentFields indexed).map Prod.fst := rfl

theorem payloadLine_known (canonical : CanonicalPayload entry)
    (index : Nat) : payloadFieldsKnown (payloadLine (entry, index)) = true := by
  have rendered := payload_rendered canonical index
  rw [payloadFieldsKnown, Bool.and_eq_true, payloadKeys_eq (entry, index)]
  constructor
  · exact rendered.fieldsKnown fun field member => List.mem_map_of_mem member
  · simp only [List.all_map, List.all_eq_true, Function.comp_apply, decide_eq_true_eq]
    intro field member
    exact (rendered.occurrences member).le

theorem componentLine_known (parts : ComponentParts journal component) (index : Nat) :
    componentFieldsKnown (componentLine (component, index)) = true := by
  have rendered := component_rendered parts index
  rw [componentFieldsKnown, Bool.and_eq_true, componentKeys_eq (component, index)]
  constructor
  · exact rendered.fieldsKnown fun field member => List.mem_map_of_mem member
  · simp only [List.all_map, List.all_eq_true, Function.comp_apply, beq_iff_eq]
    intro field member
    exact rendered.occurrences member

theorem parseComponentLine_line (parts : ComponentParts journal component) {index : Nat}
    (inside : index < journal.component_count) (small : index < 2 ^ 32) :
    parseComponentLine journal.component_count journal.package_payload_count
      (componentLine (component, index)) = some (index, component) := by
  have found := (component_rendered parts index).required
  have known := componentLine_known parts index
  rw [← componentLine] at found
  generalize componentLine (component, index) = line at found known
  simp only [componentFields, List.forall_mem_cons] at found
  obtain ⟨index_eq, payload, kind, name, target, version⟩ := found
  have index_back : (UInt32.ofNat index).toNat = index := by
    rw [UInt32.toNat_ofNat']
    omega
  have name_room : component.name.bytes.length < 49 := by
    have token := parts.name
    simp only [componentTokenValid, Bool.and_eq_true, decide_eq_true_eq] at token
    omega
  have whole : (decide (component.payload_index.toNat < journal.package_payload_count) &&
      componentValid component) = true := by
    simp [parts.payload, parts.valid]
  simp only [parseComponentLine, guard_of known, index_eq, payload, kind, name, target, version,
    parseU32_decimal small, index_back, guard_of inside, parseU32_toNat, parseKind_text,
    copyTextZ_bytes component.name name_room, copyTextZ_bytes component.target parts.target_length,
    copyTextZ_version parts.version, guard_of whole, Option.bind_eq_bind, Option.bind_some,
    Option.pure_def]

/-- The fingerprint of a payload line is read back when an unknown one is zero. -/
theorem parseFingerprint_line {known_key size_key checksum_key : Bytes} {known : Bool}
    {size : UInt64} {digest : UInt32}
    (known_eq : optionalField line known_key = some (boolDigit known))
    (size_eq : optionalField line size_key = some (decimal size.toNat))
    (checksum_eq : optionalField line checksum_key = some (decimal digest.toNat))
    (zero : known = false → size = 0 ∧ digest = 0) :
    parseFingerprint line known_key size_key checksum_key = some (known, size, digest) := by
  rw [parseFingerprint, known_eq]
  simp only [parseBool01_boolDigit, size_eq, checksum_eq]
  cases known with
  | true => simp [parseU64_decimal, parseU32_toNat]
  | false =>
    obtain ⟨rfl, rfl⟩ := zero rfl
    have size_zero : parseU64 (decimal 0) = some 0 := parseU64_decimal 0
    have digest_zero : parseU32 (decimal 0) = some 0 := parseU32_toNat 0
    simp [size_zero, digest_zero, guard]

/-- The rules of one payload that its line depends on. -/
structure PayloadParts (entry : JournalPayload) : Prop where
  old_existed : (!(entry.old_known && !entry.target_existed)) = true
  previous_named :
    (!(entry.previous_backup_known && entry.previous_backup_path.bytes == [])) = true
  markers : (!(entry.committed && entry.rolled_back)) = true
  previous_zero : entry.previous_backup_known = false →
    entry.previous_backup_size = 0 ∧ entry.previous_backup_checksum = 0
  kept : (entry.replace_required || (entry.target_existed &&
    !(entry.old_known && (entry.old_size != entry.size || entry.old_checksum != entry.checksum)))) =
      true

theorem payloadParts (valid : payloadValid entry = true) :
    PayloadParts entry := by
  simp only [payloadValid, Bool.and_eq_true] at valid
  obtain ⟨⟨⟨⟨⟨⟨⟨⟨-, -⟩, -⟩, old_existed⟩, previous_named⟩, markers⟩, -⟩, previous_zero⟩, kept⟩ := valid
  refine ⟨old_existed, previous_named, markers, ?_, kept⟩
  intro unknown
  simpa [unknown] using previous_zero

theorem parsePreviousBackup_line
    (found : optionalField line (ascii "previous_backup=") = some path.bytes)
    (normal : path.bytes = [] ∨ NormalPath path) : parsePreviousBackup line = some path := by
  simp only [parsePreviousBackup, found, Option.getD_some]
  split
  · rename_i empty
    exact congrArg some (Bounded.ext empty.symm)
  · rename_i nonempty
    exact normal.resolve_left nonempty

theorem parsePayloadLine_line (valid : payloadValid entry = true)
    (canonical : CanonicalPayload entry)
    (old_zero : entry.old_known = false → entry.old_size = 0 ∧ entry.old_checksum = 0)
    {index payload_count : Nat} (inside : index < payload_count) (small : index < 2 ^ 32) :
    parsePayloadLine payload_count (payloadLine (entry, index)) = some (index, entry) := by
  have parts := payloadParts valid
  have found := (payload_rendered canonical index).required
  have optional := (payload_rendered canonical index).optional
  have known := payloadLine_known canonical index
  rw [← payloadLine] at found optional
  generalize payloadLine (entry, index) = line at found optional known
  simp only [payloadFields, List.forall_mem_cons] at found optional
  obtain ⟨index_eq, target, stage, backup, -, -, -, -, size, digest, existed, -, -, -, required,
    committed, rolled_back⟩ := found
  obtain ⟨-, -, -, -, previous, previous_known, previous_size, previous_checksum, -, -, -, old_known,
    old_size, old_checksum, -, -, -⟩ := optional
  have index_back : (UInt32.ofNat index).toNat = index := by
    rw [UInt32.toNat_ofNat']
    omega
  have target_normal : normalizeAbsolutePath max_path entry.targetText = some entry.target_path :=
    canonical.target
  have stage_normal : normalizeAbsolutePath max_path entry.stageText = some entry.stage_path :=
    canonical.stage
  have backup_normal : normalizeAbsolutePath max_path entry.backupText = some entry.backup_path :=
    canonical.backup
  simp only [parsePayloadLine, guard_of known, index_eq, target, stage, backup, size, digest, existed,
    required, committed, rolled_back, parseU32_decimal small, index_back, guard_of inside,
    target_normal, stage_normal, backup_normal, parsePreviousBackup_line previous canonical.previous,
    parseFingerprint_line previous_known previous_size previous_checksum parts.previous_zero,
    parseFingerprint_line old_known old_size old_checksum old_zero, parseU64_decimal,
    parseU32_toNat, parseBool01_boolDigit, guard_of parts.previous_named, guard_of parts.old_existed,
    guard_of parts.markers, guard_of parts.kept, Option.bind_eq_bind, Option.bind_some,
    Option.pure_def]

end R4OS.Update
