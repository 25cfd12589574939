import R4OS.Update.JournalRoundTrip
import Mathlib.Algebra.Order.BigOperators.Group.List

/-!
# Journals restored from their text

The lines of a valid journal fill its entries in order, so that the whole text is read back; the
text of every valid journal with normal paths fits a journal slot.
-/

namespace R4OS.Update

open Text

variable {journal : TransactionJournal} {slot : Nat}

section Arrays

variable {Entry : Type} [Inhabited Entry]

theorem foldlM_fill (done rest : List Entry) :
    ((rest.zipIdx done.length).map Prod.swap).foldlM Entries.fill
        { entries := done ++ List.replicate rest.length default
          seen := (List.range done.length).reverse } =
      some { entries := done ++ rest, seen := (List.range (done.length + rest.length)).reverse } := by
  induction rest generalizing done with
  | nil => simp
  | cons entry rest induction =>
    have advanced := induction (done ++ [entry])
    have fresh : done.length ∉ (List.range done.length).reverse := by simp
    have placed : (done ++ List.replicate (entry :: rest).length default).set done.length entry =
        (done ++ [entry]) ++ List.replicate rest.length default := by
      simp [List.replicate_succ]
    have seen : done.length :: (List.range done.length).reverse =
        (List.range (done ++ [entry]).length).reverse := by
      simp [List.range_succ]
    rw [List.zipIdx_cons, List.map_cons, List.foldlM_cons]
    simp only [Entries.fill, Prod.swap_prod_mk, fresh, if_false, placed, seen, Option.bind_eq_bind,
      Option.bind_some]
    simp only [List.length_append, List.length_cons, List.length_nil, Nat.zero_add] at advanced ⊢
    rw [advanced]
    simp [Nat.add_comm, Nat.add_left_comm]

theorem foldlM_fill_fresh (entries : List Entry) :
    (entries.zipIdx.map Prod.swap).foldlM Entries.fill (Entries.fresh entries.length) =
      some { entries, seen := (List.range entries.length).reverse } := by
  simpa [Entries.fresh] using foldlM_fill [] entries

end Arrays

theorem foldlM_lines {Item State Filled : Type} {step : State → Bytes → Option State}
    {line : Item → Bytes} {fill : Filled → Item → Option Filled} (embed : Filled → State)
    (items : List Item) (step_eq : ∀ item ∈ items, ∀ filled,
      step (embed filled) (line item) = (fill filled item).map embed) (filled : Filled) :
    (items.map line).foldlM step (embed filled) = (items.foldlM fill filled).map embed := by
  induction items generalizing filled with
  | nil => rfl
  | cons item items induction =>
    have tail_eq : ∀ other ∈ items, ∀ filled,
        step (embed filled) (line other) = (fill filled other).map embed :=
      fun other member => step_eq other (.tail _ member)
    rw [List.map_cons, List.foldlM_cons, List.foldlM_cons, step_eq item (by simp)]
    cases fill filled item with
    | none => rfl
    | some next => exact induction tail_eq next

/-- The journal that is read back from a slot: a legacy binding loses its component entries. -/
def restored (journal : TransactionJournal) (slot : Nat) : TransactionJournal :=
  { headerOf journal slot with
    components :=
      if journal.components_bound then journal.components
      else List.replicate journal.component_count default
    payloads := journal.payloads }

theorem restored_component_count (journal : TransactionJournal) (slot : Nat) :
    (restored journal slot).component_count = journal.component_count := by
  simp only [restored, TransactionJournal.component_count]
  split <;> simp

theorem restored_components (slot : Nat) (bound : journal.components_bound = true) :
    (restored journal slot).components = journal.components := by
  simp [restored, bound]

theorem journalPathsValid_restored (journal : TransactionJournal) (slot : Nat) :
    journalPathsValid (restored journal slot) = journalPathsValid journal := rfl

theorem headerValid_restored (inside : slot ≤ 1)
    (valid : headerValid journal = true) : headerValid (restored journal slot) = true := by
  have same_count := restored_component_count journal slot
  unfold headerValid at valid ⊢
  rw [same_count]
  simp only [Bool.and_eq_true, decide_eq_true_eq] at valid ⊢
  simp only [restored, headerOf, TransactionJournal.payload_count] at valid ⊢
  tauto

theorem journalValid_restored (inside : slot ≤ 1)
    (valid : journalValid journal = true) : journalValid (restored journal slot) = true := by
  have components : (!journal.components_bound || componentsValid (restored journal slot)) =
      (!journal.components_bound || componentsValid journal) := by
    cases bound : journal.components_bound with
    | false => rfl
    | true =>
      unfold componentsValid
      rw [restored_components slot bound]
      rfl
  have header := headerValid_restored inside (validParts valid).header
  unfold journalValid at valid ⊢
  rw [header, journalPathsValid_restored]
  rw [(validParts valid).header, ← components] at valid
  exact valid

theorem headerFields_known (journal : TransactionJournal) :
    ∀ field ∈ headerFields journal, field.1 ∈ headerKeys := by
  simp only [headerFields, List.forall_mem_cons]
  and_intros <;> decide

theorem bodyLines_known (journal : TransactionJournal) :
    journalLinesKnown (bodyLines journal) = true := by
  simp only [journalLinesKnown, List.all_eq_true, Bool.and_eq_true, bne_iff_ne, Bool.or_eq_true,
    List.any_eq_true]
  intro line member
  rw [bodyLines, List.mem_append, List.mem_append] at member
  rcases member with (member | member) | member
  · obtain ⟨field, field_mem, rfl⟩ := List.mem_map.mp member
    have key := headerFields_keys journal field field_mem
    exact ⟨by simp [keyed, key.1],
      .inr ⟨field.1, headerFields_known journal field field_mem, startsWith_append _ _⟩⟩
  · obtain ⟨rest, rfl⟩ := componentLines_eq member
    exact ⟨by simp [ascii], .inl (.inr (startsWith_append _ _))⟩
  · obtain ⟨rest, rfl⟩ := payloadLines_eq member
    exact ⟨by simp [ascii], .inl (.inl (startsWith_append _ _))⟩

section EntryLines

variable {journal : TransactionJournal}

theorem parseBodyLine_header (header : TransactionJournal) (payload_count component_count : Nat)
    (arrays : Entries JournalComponent × Entries JournalPayload) {field : Bytes × Bytes}
    (member : field ∈ headerFields journal) :
    parseBodyLine header payload_count component_count arrays (keyed field) = some arrays := by
  obtain ⟨component, payload, -⟩ := headerFields_foreign journal field member
  have not_component : startsWith (keyed field) (ascii "COMPONENT;") = false :=
    component.symm.not_startsWith field.2
  have not_payload : startsWith (keyed field) (ascii "PAYLOAD;") = false :=
    payload.symm.not_startsWith field.2
  simp [parseBodyLine, not_component, not_payload]

theorem foldlM_header (header : TransactionJournal) (payload_count component_count : Nat)
    (arrays : Entries JournalComponent × Entries JournalPayload) :
    ((headerFields journal).map keyed).foldlM
      (parseBodyLine header payload_count component_count) arrays = some arrays := by
  have skipped : ∀ fields : List (Bytes × Bytes), (∀ field ∈ fields, field ∈ headerFields journal) →
      (fields.map keyed).foldlM (parseBodyLine header payload_count component_count) arrays =
        some arrays := by
    intro fields inside
    induction fields with
    | nil => rfl
    | cons field fields induction =>
      rw [List.map_cons, List.foldlM_cons, parseBodyLine_header _ _ _ _ (inside field (by simp))]
      exact induction fun other member => inside other (.tail _ member)
  exact skipped _ fun _ member => member

theorem foldlM_componentLines (slot : Nat) (valid : journalValid journal = true)
    (payloads : Entries JournalPayload) :
    (componentLines journal).foldlM
        (parseBodyLine (headerOf journal slot) journal.payload_count journal.component_count)
        (Entries.fresh journal.component_count, payloads) =
      some ({ entries := (restored journal slot).components
              seen := if journal.components_bound
                then (List.range journal.component_count).reverse else [] }, payloads) := by
  cases bound : journal.components_bound with
  | false => simp [componentLines, restored, bound, Entries.fresh]
  | true =>
    have component_le := (headerParts (validParts valid).header).component_le
    have package_max := (headerParts (validParts valid).header).package_max
    have max_eq : max_package_payloads = 32 := rfl
    have step : ∀ indexed ∈ journal.components.zipIdx, ∀ filled : Entries JournalComponent,
        parseBodyLine (headerOf journal slot) journal.payload_count journal.component_count
          (filled, payloads) (componentLine indexed) =
          (filled.fill indexed.swap).map fun next => (next, payloads) := by
      rintro ⟨component, index⟩ member filled
      have inside : index < journal.component_count := List.snd_lt_of_mem_zipIdx member
      have parts := componentParts ((validParts valid).components bound)
        (List.fst_mem_of_mem_zipIdx member)
      obtain ⟨rest, tagged⟩ := componentLine_eq (component, index)
      have tag : startsWith (componentLine (component, index)) (ascii "COMPONENT;") = true := by
        rw [tagged, startsWith_append]
      have line := parseComponentLine_line parts inside (by omega)
      have count : (headerOf journal slot).package_payload_count =
          journal.package_payload_count := rfl
      simp only [parseBodyLine, tag, if_true, count, line, Option.bind_eq_bind, Option.bind_some,
        Prod.swap_prod_mk]
      cases filled.fill (index, component) <;> rfl
    have filled := foldlM_lines (fun next => (next, payloads)) journal.components.zipIdx step
      (Entries.fresh journal.component_count)
    have fresh := foldlM_fill_fresh journal.components
    rw [List.foldlM_map] at fresh
    rw [componentLines, if_pos bound, filled]
    rw [restored_components slot bound, if_pos rfl, TransactionJournal.component_count, fresh]
    rfl

theorem foldlM_payloadLines (valid : journalValid journal = true)
    (canonical : CanonicalJournal journal) (old_zero : UnknownOldZero journal)
    (header : TransactionJournal) (component_count : Nat) (components : Entries JournalComponent) :
    (payloadLines journal).foldlM (parseBodyLine header journal.payload_count component_count)
        (components, Entries.fresh journal.payload_count) =
      some (components, { entries := journal.payloads
                          seen := (List.range journal.payload_count).reverse }) := by
  have payload_max := (headerParts (validParts valid).header).payload_max
  have max_eq : max_payloads = 34 := rfl
  have step : ∀ indexed ∈ journal.payloads.zipIdx, ∀ filled : Entries JournalPayload,
      parseBodyLine header journal.payload_count component_count (components, filled)
        (payloadLine indexed) =
        (filled.fill indexed.swap).map fun next => (components, next) := by
    rintro ⟨entry, index⟩ member filled
    have inside : index < journal.payload_count := List.snd_lt_of_mem_zipIdx member
    have entry_mem := List.fst_mem_of_mem_zipIdx member
    obtain ⟨rest, tagged⟩ := payloadLine_eq (entry, index)
    have tag : startsWith (payloadLine (entry, index)) (ascii "PAYLOAD;") = true := by
      rw [tagged, startsWith_append]
    have other : startsWith (payloadLine (entry, index)) (ascii "COMPONENT;") = false := by
      rw [tagged]
      exact Incomparable.not_startsWith (by decide) rest
    have line := parsePayloadLine_line ((validParts valid).payloads entry entry_mem)
      (canonical.payloads entry entry_mem) (old_zero entry entry_mem) inside (by omega)
    simp only [parseBodyLine, tag, other, if_true, line, Option.bind_eq_bind, Option.bind_some,
      Prod.swap_prod_mk, Bool.false_eq_true, if_false]
    cases filled.fill (index, entry) <;> rfl
  have filled := foldlM_lines (fun next => (components, next)) journal.payloads.zipIdx step
    (Entries.fresh journal.payload_count)
  have fresh := foldlM_fill_fresh journal.payloads
  rw [List.foldlM_map] at fresh
  rw [payloadLines, filled, TransactionJournal.payload_count, fresh]
  rfl

end EntryLines

/-- A valid journal with normal paths is read back from its text. -/
theorem parseJournalInto_journalText (inside : slot ≤ 1) (valid : journalValid journal = true)
    (canonical : CanonicalJournal journal) (old_zero : UnknownOldZero journal)
    (room : (journalText journal).length ≤ journal_max) :
    parseJournalInto (journalText journal) slot = some (restored journal slot) := by
  have nonempty : journalText journal ≠ [] := by simp [journalText]
  have version : journalField (journalText journal) (ascii "R4U_JOURNAL=") = some (ascii "5") := by
    have listed : (ascii "R4U_JOURNAL=", ascii "5") ∈ headerFields journal := by simp [headerFields]
    rw [journalField, textLines_read valid canonical]
    exact header_lookup journal listed
  have version_known : equalsIgnoreCase (ascii "5") (ascii "5") = true := by decide
  have arrays : (bodyLines journal).foldlM
      (parseBodyLine (headerOf journal slot) journal.payload_count journal.component_count)
      (Entries.fresh journal.component_count, Entries.fresh journal.payload_count) =
      some ({ entries := (restored journal slot).components
              seen := if journal.components_bound
                then (List.range journal.component_count).reverse else [] },
            { entries := journal.payloads, seen := (List.range journal.payload_count).reverse }) := by
    rw [bodyLines, List.foldlM_append, List.foldlM_append, foldlM_header, Option.bind_eq_bind,
      Option.bind_some, foldlM_componentLines slot valid, Option.bind_some]
    exact foldlM_payloadLines valid canonical old_zero _ _ _
  have components_seen : (if journal.components_bound
      then (List.range journal.component_count).reverse else []).length =
      if (headerOf journal slot).components_bound then journal.component_count else 0 := by
    have same : (headerOf journal slot).components_bound = journal.components_bound := rfl
    rw [same]
    split <;> simp
  have payloads_seen : (List.range journal.payload_count).reverse.length = journal.payload_count := by
    simp
  have whole : journalValid
      { headerOf journal slot with
        components := (restored journal slot).components, payloads := journal.payloads } = true :=
    journalValid_restored inside valid
  have slotted : slot ≤ 1 ∧ journalText journal ≠ [] ∧ (journalText journal).length ≤ journal_max :=
    ⟨inside, nonempty, room⟩
  simp only [parseJournalInto, guard_of slotted, checksummedBody_journalText, version,
    guard_of version_known, bodyLines_read valid canonical, guard_of (bodyLines_known journal),
    textLines_read valid canonical, parseHeader_text valid canonical slot, arrays,
    guard_of components_seen, guard_of payloads_seen, guard_of whole, Option.bind_eq_bind,
    Option.bind_some, Option.pure_def]
  rfl

def keysLength (fields : List (Bytes × Bytes)) : Nat :=
  (fields.map fun field => field.1.length + 1).sum

/-- The values are at most as long as the bounds say, one bound for each field. -/
def ValuesWithin (fields : List (Bytes × Bytes)) (bounds : List Nat) : Prop :=
  List.Forall₂ (· ≤ ·) (fields.map fun field => field.2.length) bounds

theorem unlines_keyed_length (fields : List (Bytes × Bytes)) :
    (unlines (fields.map keyed)).length =
      keysLength fields + (fields.map fun field => field.2.length).sum := by
  unfold keysLength
  induction fields with
  | nil => rfl
  | cons field fields induction =>
    simp only [List.map_cons, unlines_cons, List.length_append, List.length_cons, induction, keyed,
      List.sum_cons]
    omega

theorem unlines_keyed_length_le {fields : List (Bytes × Bytes)} {bounds : List Nat}
    (within : ValuesWithin fields bounds) :
    (unlines (fields.map keyed)).length ≤ keysLength fields + bounds.sum := by
  rw [unlines_keyed_length]
  exact Nat.add_le_add_left within.sum_le_sum _

theorem fieldLine_length (tag : Bytes) (fields : List (Bytes × Bytes)) :
    (fieldLine tag fields).length = tag.length + (unlines (fields.map keyed)).length := by
  rw [fieldLine_eq, List.length_append, unlines, List.length_flatMap, List.length_flatMap,
    List.map_map]
  congr 2
  apply List.map_congr_left
  intro field member
  simp

theorem fieldLine_length_le (tag : Bytes) {fields : List (Bytes × Bytes)} {bounds : List Nat}
    (within : ValuesWithin fields bounds) :
    (fieldLine tag fields).length ≤ tag.length + (keysLength fields + bounds.sum) := by
  rw [fieldLine_length]
  exact Nat.add_le_add_left (unlines_keyed_length_le within) _

theorem decimal_length_u64 (value : UInt64) : (decimal value.toNat).length ≤ 20 :=
  decimal_length_le (Nat.lt_trans value.toNat_lt (by decide)) (by decide)

theorem decimal_length_u32 {value : Nat} (small : value < 2 ^ 32) :
    (decimal value).length ≤ 10 :=
  decimal_length_le (Nat.lt_trans small (by decide)) (by decide)

theorem boolDigit_length (value : Bool) : (boolDigit value).length ≤ 1 := by
  cases value <;> decide

theorem yesNo_length (value : Bool) : (yesNo value).length ≤ 3 := by
  cases value <;> decide

theorem phaseName_length (phase : JournalPhase) : (phaseName phase).length ≤ 11 := by
  cases phase <;> decide

theorem kindText_length (kind : JournalComponentKind) : kind.text.length ≤ 6 := by
  cases kind <;> decide

theorem keyword_length (value : Bool) {yes no : Bytes} {bound : Nat} (yes_short : yes.length ≤ bound)
    (no_short : no.length ≤ bound) : (if value then yes else no).length ≤ bound := by
  cases value <;> assumption

theorem NormalPath.length_le {path : Bounded max_path} (normal : NormalPath path) :
    path.bytes.length ≤ 1023 := Nat.le_of_lt_succ normal.length

theorem version_length_le {value : Bytes} (valid : versionTextValid value = true) :
    value.length ≤ 31 := Nat.le_of_lt_succ (version_length valid)

theorem payloadLine_length (entry : JournalPayload) {index : Nat} (small : index < 2 ^ 32) :
    (payloadLine (entry, index)).length ≤ 4400 := by
  have within : ValuesWithin (payloadFields (entry, index))
      [10, 1024, 1024, 1024, 1024, 1, 20, 10, 20, 10, 1, 1, 20, 10, 1, 1, 1] := by
    simp only [ValuesWithin, payloadFields, List.map_cons, List.map_nil, List.forall₂_cons,
      List.forall₂_nil_left_iff, and_true]
    exact ⟨decimal_length_u32 small, entry.target_path.fits, entry.stage_path.fits,
      entry.backup_path.fits, entry.previous_backup_path.fits, boolDigit_length _,
      decimal_length_u64 _,
      decimal_length_u32 (UInt32.toNat_lt _), decimal_length_u64 _,
      decimal_length_u32 (UInt32.toNat_lt _), boolDigit_length _, boolDigit_length _,
      decimal_length_u64 _, decimal_length_u32 (UInt32.toNat_lt _), boolDigit_length _,
      boolDigit_length _, boolDigit_length _⟩
  have keys : keysLength (payloadFields (entry, index)) = 191 := by
    simp only [keysLength, payloadFields, List.map_cons, List.map_nil]
    decide
  have total := fieldLine_length_le (ascii "PAYLOAD") within
  rw [keys] at total
  exact Nat.le_trans total (by decide)

theorem componentLine_length {component : JournalComponent}
    (parts : ComponentParts journal component) {index : Nat} (small : index < 2 ^ 32) :
    (componentLine (component, index)).length ≤ 1200 := by
  have within : ValuesWithin (componentFields (component, index)) [10, 10, 6, 49, 1023, 31] := by
    simp only [ValuesWithin, componentFields, List.map_cons, List.map_nil, List.forall₂_cons,
      List.forall₂_nil_left_iff, and_true]
    exact ⟨decimal_length_u32 small, decimal_length_u32 (UInt32.toNat_lt _), kindText_length _,
      component.name.fits, Nat.le_of_lt_succ parts.target_length, version_length_le parts.version⟩
  have keys : keysLength (componentFields (component, index)) = 45 := by
    simp only [keysLength, componentFields, List.map_cons, List.map_nil]
    decide
  have total := fieldLine_length_le (ascii "COMPONENT") within
  rw [keys] at total
  exact Nat.le_trans total (by decide)

theorem unlines_length {texts : List Bytes} {count bound : Nat} (few : texts.length ≤ count)
    (short : ∀ line ∈ texts, line.length ≤ bound) :
    (unlines texts).length ≤ count * (bound + 1) := by
  refine Nat.le_trans ?_ (Nat.mul_le_mul_right (bound + 1) few)
  clear few
  induction texts with
  | nil => simp
  | cons line texts induction =>
    have line_short := short line (by simp)
    have tail := induction fun other member => short other (.tail _ member)
    rw [unlines_cons, List.length_append, List.length_cons, List.length_cons, Nat.succ_mul]
    omega

variable (valid : journalValid journal = true)

include valid

theorem componentLines_length :
    (unlines (componentLines journal)).length ≤ 32 * 1201 := by
  have component_le := (headerParts (validParts valid).header).component_le
  have package_max := (headerParts (validParts valid).header).package_max
  have max_eq : max_package_payloads = 32 := rfl
  unfold componentLines
  split
  · rename_i bound
    have few : (journal.components.zipIdx.map componentLine).length ≤ 32 := by
      rw [List.length_map, List.length_zipIdx]
      exact Nat.le_trans component_le package_max
    refine unlines_length few fun line member => ?_
    obtain ⟨⟨component, index⟩, indexed_mem, rfl⟩ := List.mem_map.mp member
    have inside : index < journal.component_count := List.snd_lt_of_mem_zipIdx indexed_mem
    exact componentLine_length (componentParts ((validParts valid).components bound)
      (List.fst_mem_of_mem_zipIdx indexed_mem)) (by omega)
  · exact Nat.zero_le _

theorem payloadLines_length :
    (unlines (payloadLines journal)).length ≤ 34 * 4401 := by
  have payload_max := (headerParts (validParts valid).header).payload_max
  have max_eq : max_payloads = 34 := rfl
  have few : (payloadLines journal).length ≤ 34 := by
    rw [payloadLines, List.length_map, List.length_zipIdx]
    exact payload_max
  refine unlines_length few fun line member => ?_
  obtain ⟨⟨entry, index⟩, indexed_mem, rfl⟩ := List.mem_map.mp member
  have inside : index < journal.payload_count := List.snd_lt_of_mem_zipIdx indexed_mem
  exact payloadLine_length entry (by omega)

theorem headerLines_length :
    (unlines ((headerFields journal).map keyed)).length ≤ 2400 := by
  have header := headerParts (validParts valid).header
  have payload_max : journal.payload_count ≤ 34 := header.payload_max
  have package_le := header.package_le
  have component_le := header.component_le
  have committed_le := header.committed_le
  have rollback_le := header.rollback_le
  have small (count : Nat) (bounded : count ≤ 34) : (decimal count).length ≤ 10 :=
    decimal_length_u32 (by omega)
  have within : ValuesWithin (headerFields journal)
      [1, 20, 20, 11, 10, 20, 10, 10, 10, 6, 10, 31, 31, 31, 1024, 10, 10, 10, 10, 3, 3] := by
    simp only [ValuesWithin, headerFields, List.map_cons, List.map_nil, List.forall₂_cons,
      List.forall₂_nil_left_iff, and_true]
    exact ⟨by decide, decimal_length_u64 _, decimal_length_u64 _, phaseName_length _,
      decimal_length_u32 (UInt32.toNat_lt _), decimal_length_u64 _,
      decimal_length_u32 (UInt32.toNat_lt _), decimal_length_u32 (UInt32.toNat_lt _),
      small _ (by omega), keyword_length _ (by decide) (by decide),
      keyword_length _ (by decide) (by decide), version_length_le header.package_version,
      version_length_le header.source_version, version_length_le header.target_version,
      journal.source_path.fits, small _ (by omega), small _ payload_max, small _ (by omega),
      small _ (by omega), yesNo_length _, yesNo_length _⟩
  have keys : keysLength (headerFields journal) = 291 := by
    simp only [keysLength, headerFields, List.map_cons, List.map_nil]
    decide
  have total := unlines_keyed_length_le within
  rw [keys] at total
  exact Nat.le_trans total (by decide)

/-- A valid journal fits a journal slot. -/
theorem journalText_length :
    (journalText journal).length ≤ journal_max := by
  have header := headerLines_length valid
  have components := componentLines_length valid
  have payloads := payloadLines_length valid
  have digest : (checksumLine (journalBody journal)).length ≤ 19 := by
    have digits := decimal_length_u32 (checksum (journalBody journal)).toNat_lt
    have marker : (ascii "CHECKSUM=").length = 9 := rfl
    rw [checksumLine, List.length_append]
    omega
  rw [journalText, List.length_append, List.length_append, List.length_singleton]
  have body : (journalBody journal).length ≤ 2400 + 32 * 1201 + 34 * 4401 := by
    rw [journalBody, bodyLines, unlines_append, unlines_append, List.length_append,
      List.length_append]
    omega
  have max_eq : journal_max = 196608 := rfl
  omega

end R4OS.Update
