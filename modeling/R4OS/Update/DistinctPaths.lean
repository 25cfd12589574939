import R4OS.Update.Journal

/-!
# Distinct journal paths

The private names of a transaction differ from each other, and the nested comparison of an accepted
journal leaves no two of its paths equal.
-/

namespace R4OS.Update

open Text

theorem hexDigit_inj : ∀ low < 16, ∀ high < 16, hexDigit low = hexDigit high → low = high := by
  decide

theorem foldPathByte_hexDigit : ∀ digit < 16, foldPathByte (hexDigit digit) = hexDigit digit := by
  decide

theorem internalMix_mod (generation : UInt64) (index : Nat) :
    internalMix generation index % 2 ^ 28 =
      (generation * 0x9E3779B9).toNat % 2 ^ 28 ^^^ index * 0x85EBCA6B % 2 ^ 28 := by
  have factor : UInt64.toNat 0x85EBCA6B = 0x85EBCA6B := rfl
  rw [internalMix, Nat.mod_mod_of_dvd _ (by decide), UInt64.toNat_xor, Nat.xor_mod_two_pow,
    UInt64.toNat_mul (UInt64.ofNat index), UInt64.toNat_ofNat', factor]
  congr 1
  omega

theorem spread_inj : ∀ index < max_payloads, ∀ other < max_payloads,
    index * 0x85EBCA6B % 2 ^ 28 = other * 0x85EBCA6B % 2 ^ 28 → index = other := by
  decide

/-- Seven hexadecimal digits determine the low 28 bits of a number. -/
theorem mod_of_digits {first second : Nat} (digits : ∀ digit < 7,
    first / 2 ^ ((6 - digit) * 4) % 16 = second / 2 ^ ((6 - digit) * 4) % 16) :
    first % 2 ^ 28 = second % 2 ^ 28 := by
  have seventh : first % 16 = second % 16 := by simpa using digits 6 (by decide)
  have sixth : first / 16 % 16 = second / 16 % 16 := digits 5 (by decide)
  have fifth : first / 256 % 16 = second / 256 % 16 := digits 4 (by decide)
  have fourth : first / 4096 % 16 = second / 4096 % 16 := digits 3 (by decide)
  have third : first / 65536 % 16 = second / 65536 % 16 := digits 2 (by decide)
  have two : first / 1048576 % 16 = second / 1048576 % 16 := digits 1 (by decide)
  have one : first / 16777216 % 16 = second / 16777216 % 16 := digits 0 (by decide)
  omega

theorem internalDigits_inj {generation : UInt64} {index other : Nat} (small : index < max_payloads)
    (other_small : other < max_payloads)
    (same : internalDigits generation index = internalDigits generation other) : index = other := by
  rw [internalDigits, internalDigits, List.map_inj_left] at same
  have low : internalMix generation index % 2 ^ 28 = internalMix generation other % 2 ^ 28 :=
    mod_of_digits fun digit inside =>
      hexDigit_inj _ (Nat.mod_lt _ (by decide)) _ (Nat.mod_lt _ (by decide))
        (same digit (List.mem_range.mpr inside))
  rw [internalMix_mod, internalMix_mod] at low
  generalize (generation * 0x9E3779B9).toNat % 2 ^ 28 = mixed at low
  have low := congrArg (mixed ^^^ ·) low
  simp only [← Nat.xor_assoc, Nat.xor_self, Nat.zero_xor] at low
  exact spread_inj index small other other_small low

theorem buildInternal83Name_eq_some {capacity : Nat} {target : Bytes} {letter : UInt8}
    {generation : UInt64} {index : Nat} {name : Bytes}
    (built : buildInternal83Name capacity target letter generation index = some name) :
    (letter = chr 'S' ∨ letter = chr 'B') ∧ name = parentPrefix target ++
      (letter :: internalDigits generation index ++ ascii ".R4U") := by
  unfold buildInternal83Name at built
  split at built
  · cases built
  rename_i letters
  split at built
  · cases built
  cases built
  exact ⟨by tauto, by simp⟩

theorem buildInternal83Name_inj {capacity capacity' : Nat} {target target' : Bytes}
    {letter letter' : UInt8} {generation : UInt64} {index index' : Nat} {name name' : Bytes}
    (small : index < max_payloads) (small' : index' < max_payloads)
    (built : buildInternal83Name capacity target letter generation index = some name)
    (built' : buildInternal83Name capacity' target' letter' generation index' = some name')
    (same : pathEqualsIgnoreCase name name' = true) : letter = letter' ∧ index = index' := by
  obtain ⟨letters, rfl⟩ := buildInternal83Name_eq_some built
  obtain ⟨letters', rfl⟩ := buildInternal83Name_eq_some built'
  rw [pathEqualsIgnoreCase, beq_iff_eq] at same
  simp only [List.map_append] at same
  have leaf := (List.append_inj' same (by simp [internalDigits])).2
  have kept : ∀ place, (internalDigits generation place).map foldPathByte =
      internalDigits generation place := by
    intro place
    rw [internalDigits, List.map_map]
    refine List.map_congr_left fun digit _ => ?_
    rw [Function.comp_apply]
    exact foldPathByte_hexDigit _ (Nat.mod_lt _ (by decide))
  rw [List.append_cancel_right_eq, List.map_cons, List.map_cons,
    kept, kept, List.cons.injEq] at leaf
  refine ⟨?_, internalDigits_inj small small' leaf.2⟩
  rcases letters with rfl | rfl <;> rcases letters' with rfl | rfl <;>
    first | rfl | exact absurd leaf.1 (by decide)

/-- The path of a payload at its place in the comparison. -/
def journalPayloadPath (entry : JournalPayload) : Nat → Bytes
  | 0 => entry.targetText
  | 1 => entry.stageText
  | 2 => entry.backupText
  | 3 => entry.previousBackupText
  | _ => []

/-- Whether no path behind a place equals the path there. -/
def otherPathsDiffer (journal : TransactionJournal) (path : Bytes) (index path_index : Nat) : Bool :=
  (List.range' index (journal.payload_count - index)).all fun other_index =>
    let other := journal.payloads.getD other_index {}
    let first := if other_index = index then path_index + 1 else 0
    (List.range' first (4 - first)).all fun other_path_index =>
      let other_path := journalPayloadPath other other_path_index
      other_path == [] || !pathEqualsIgnoreCase path other_path

/-- The paths of a journal, checked entry by entry. -/
def journalPathsScan (journal : TransactionJournal) : Bool :=
  startsWithIgnoreCase journal.sourceText (ascii "C:\\R4OS\\UPDATE\\INBOX\\") &&
    (List.range journal.payload_count).all fun index =>
      let entry := journal.payloads.getD index {}
      payloadPathsValid journal (entry, index) && (List.range 4).all fun path_index =>
        let path := journalPayloadPath entry path_index
        path == [] || (!pathEqualsIgnoreCase journal.sourceText path &&
          otherPathsDiffer journal path index path_index)

/-- A path of a payload by the index of the payload and its own. -/
def TransactionJournal.pathAt (journal : TransactionJournal) (index path_index : Nat) : Bytes :=
  journalPayloadPath (journal.payloads.getD index {}) path_index

variable {journal : TransactionJournal}

/-- The paths of a journal differ from those that the comparison meets later. -/
def PathsApart (journal : TransactionJournal) : Prop :=
  ∀ index other, index ≤ other → other < journal.payload_count → ∀ path_index < 4,
    ∀ other_index < 4, (other = index → path_index < other_index) →
      journal.pathAt index path_index ≠ [] → journal.pathAt other other_index ≠ [] →
        pathEqualsIgnoreCase (journal.pathAt index path_index) (journal.pathAt other other_index) =
          false

theorem otherPathsDiffer_iff {path : Bytes} {index path_index : Nat} :
    otherPathsDiffer journal path index path_index = true ↔
      ∀ other, index ≤ other → other < journal.payload_count → ∀ other_index < 4,
        (other = index → path_index < other_index) → journal.pathAt other other_index ≠ [] →
          pathEqualsIgnoreCase path (journal.pathAt other other_index) = false := by
  simp only [otherPathsDiffer, List.all_eq_true, List.mem_range'_1, Bool.or_eq_true, beq_iff_eq,
    Bool.not_eq_true', TransactionJournal.pathAt]
  constructor
  · intro scanned other low high other_index inside later present
    refine (scanned other (by omega) other_index ?_).resolve_left present
    split <;> omega
  · intro apart other inside other_index inside_other
    refine or_iff_not_imp_left.mpr (apart other (by omega) (by omega) other_index ?_ ?_)
    · split at inside_other <;> omega
    · intro same
      rw [if_pos same] at inside_other
      omega

theorem journalPayloadPaths_eq (entry : JournalPayload) : journalPayloadPaths entry =
    ((List.range 4).map (journalPayloadPath entry)).filter fun path => path ≠ [] := rfl

theorem TransactionJournal.pathAt_eq {index : Nat} (inside : index < journal.payload_count)
    (path_index : Nat) :
    journal.pathAt index path_index = journalPayloadPath journal.payloads[index] path_index := by
  rw [pathAt, List.getD_eq_getElem?_getD, List.getElem?_eq_getElem inside, Option.getD_some]

theorem mem_paths {path : Bytes} : path ∈ journal.payloads.flatMap journalPayloadPaths ↔
    ∃ index < journal.payload_count, ∃ path_index < 4,
      journal.pathAt index path_index = path ∧ path ≠ [] := by
  simp only [List.mem_flatMap, journalPayloadPaths_eq, List.mem_filter, List.mem_map,
    List.mem_range, decide_eq_true_eq]
  constructor
  · rintro ⟨entry, member, ⟨path_index, small, rfl⟩, present⟩
    obtain ⟨index, inside, rfl⟩ := List.getElem_of_mem member
    exact ⟨index, inside, path_index, small, journal.pathAt_eq inside _, present⟩
  · rintro ⟨index, inside, path_index, small, rfl, present⟩
    exact ⟨_, List.getElem_mem inside, ⟨path_index, small, (journal.pathAt_eq inside _).symm⟩,
      present⟩

theorem pathsApart_iff : (journal.payloads.flatMap journalPayloadPaths).Pairwise
    (fun path other => pathEqualsIgnoreCase path other = false) ↔ PathsApart journal := by
  rw [List.pairwise_flatMap]
  simp only [journalPayloadPaths_eq, List.pairwise_filter, List.pairwise_map, List.mem_filter,
    List.mem_map, List.mem_range, decide_eq_true_eq]
  simp only [List.pairwise_iff_getElem, List.getElem_range, List.length_range]
  constructor
  · rintro ⟨own, cross⟩ index other ordered inside path_index small other_index small' later
    have first := ordered.trans_lt inside
    rw [journal.pathAt_eq first, journal.pathAt_eq inside]
    intro present present'
    rcases ordered.eq_or_lt with rfl | before
    · exact own _ (List.getElem_mem inside) _ _ small small' (later rfl) present present'
    · exact cross index other first inside before _ ⟨⟨_, small, rfl⟩, present⟩ _
        ⟨⟨_, small', rfl⟩, present'⟩
  · intro apart
    constructor
    · intro entry member path_index other_index small small' less
      obtain ⟨index, inside, rfl⟩ := List.getElem_of_mem member
      simpa only [journal.pathAt_eq inside] using
        apart index index le_rfl inside _ small _ small' fun _ => less
    · rintro index other inside inside' before _ ⟨⟨path_index, small, rfl⟩, present⟩ _
        ⟨⟨other_index, small', rfl⟩, present'⟩
      have differ := apart index other before.le inside' _ small _ small' (by omega)
      rw [journal.pathAt_eq inside, journal.pathAt_eq inside'] at differ
      exact differ present present'

theorem journalPathsScan_eq (journal : TransactionJournal) :
    journalPathsScan journal = journalPathsValid journal := by
  rw [Bool.eq_iff_iff]
  simp only [journalPathsScan, journalPathsValid, Bool.and_eq_true, and_assoc, List.all_eq_true,
    List.mem_range, Bool.or_eq_true, beq_iff_eq, otherPathsDiffer_iff, decide_eq_true_eq,
    Bool.not_eq_true', pathsApart_iff, mem_paths]
  refine and_congr_right fun _ => ⟨fun scanned => ⟨?_, ?_, ?_⟩, ?_⟩
  · rintro ⟨entry, index⟩ member
    have found := List.mk_mem_zipIdx_iff_getElem?.mp member
    obtain ⟨inside, rfl⟩ := List.getElem?_eq_some_iff.mp found
    have valid := (scanned index inside).1
    rwa [List.getD_eq_getElem?_getD, found] at valid
  · rintro _ ⟨index, inside, path_index, small, rfl, present⟩
    exact (((scanned index inside).2 path_index small).resolve_left present).1
  · intro index other ordered inside path_index small other_index small' later present present'
    exact (((scanned index (ordered.trans_lt inside)).2 path_index small).resolve_left present).2
      other ordered inside other_index small' later present'
  · rintro ⟨valid, foreign, apart⟩ index inside
    refine ⟨valid _ (List.mk_mem_zipIdx_iff_getElem?.mpr ?_), fun path_index small =>
      or_iff_not_imp_left.mpr fun present => ⟨foreign _ ⟨index, inside, path_index, small, rfl,
        present⟩, fun other ordered inside' other_index small' later =>
          apart index other ordered inside' path_index small other_index small' later present⟩⟩
    rw [List.getD_eq_getElem?_getD, List.getElem?_eq_getElem inside, Option.getD_some]

theorem pathEqualsIgnoreCase_comm (path other : Bytes) :
    pathEqualsIgnoreCase path other = pathEqualsIgnoreCase other path := by
  rw [pathEqualsIgnoreCase, pathEqualsIgnoreCase, Bool.eq_iff_iff, beq_iff_eq, beq_iff_eq, eq_comm]

theorem internalNameValid_present {entry : JournalPayload} {path : Bytes} {letter : UInt8}
    {index : Nat} (valid : internalNameValid journal entry path letter index = true) : path ≠ [] := by
  rintro rfl
  unfold internalNameValid at valid
  split at valid
  · exact absurd valid (by simp [baseName, validateShortName83Text])
  · cases valid

/-- The target, stage and backup of an accepted payload are there. -/
theorem payloadPathsValid_present {entry : JournalPayload} {index path_index : Nat}
    (valid : payloadPathsValid journal (entry, index) = true) (small : path_index < 3) :
    journalPayloadPath entry path_index ≠ [] := by
  simp only [payloadPathsValid, Bool.and_eq_true] at valid
  obtain ⟨⟨⟨target, stage⟩, backup⟩, -⟩ := valid
  obtain _ | _ | _ | more := path_index
  · intro empty
    rw [show entry.targetText = [] from empty] at target
    exact absurd target (by decide)
  · exact internalNameValid_present stage
  · exact internalNameValid_present backup
  · omega

/-- Private names of one generation differ, and so do all paths of an accepted journal. -/
theorem journal_paths_distinct (generation : UInt64) (journal : TransactionJournal) :
    (∀ capacity capacity' target target' letter letter' name name', ∀ index < max_payloads,
      ∀ index' < max_payloads,
        buildInternal83Name capacity target letter generation index = some name →
        buildInternal83Name capacity' target' letter' generation index' = some name' →
        (letter, index) ≠ (letter', index') → pathEqualsIgnoreCase name name' = false) ∧
    (journalPathsScan journal = true → ∀ index < journal.payload_count,
      ∀ other < journal.payload_count, ∀ path_index < 4, ∀ other_index < 4,
        (index, path_index) ≠ (other, other_index) →
        (path_index = 3 → journal.pathAt index 3 ≠ []) →
        (other_index = 3 → journal.pathAt other 3 ≠ []) →
          pathEqualsIgnoreCase (journal.pathAt index path_index) (journal.pathAt other other_index) =
            false) := by
  refine ⟨fun _ _ _ _ _ _ _ _ _ small _ small' built built' differ => ?_, fun accepted => ?_⟩
  · refine Bool.eq_false_iff.mpr fun same => differ ?_
    obtain ⟨rfl, rfl⟩ := buildInternal83Name_inj small small' built built' same
    rfl
  rw [journalPathsScan_eq] at accepted
  simp only [journalPathsValid, Bool.and_eq_true, decide_eq_true_eq, Bool.not_eq_true',
    pathsApart_iff, List.all_eq_true] at accepted
  obtain ⟨⟨⟨-, valid⟩, -⟩, apart⟩ := accepted
  have present : ∀ index < journal.payload_count, ∀ path_index < 4,
      (path_index = 3 → journal.pathAt index 3 ≠ []) → journal.pathAt index path_index ≠ [] := by
    intro index inside path_index small last
    by_cases optional : path_index = 3
    · exact optional ▸ last optional
    · rw [journal.pathAt_eq inside]
      exact payloadPathsValid_present (valid (_, index) (List.mk_mem_zipIdx_iff_getElem?.mpr
        (List.getElem?_eq_getElem inside))) (by omega)
  intro index inside other inside' path_index small other_index small' differ named named'
  have here := present index inside path_index small named
  have there := present other inside' other_index small' named'
  rcases Nat.lt_trichotomy index other with before | rfl | after
  · exact apart index other before.le inside' _ small _ small' (by omega) here there
  · rcases Nat.lt_or_gt_of_ne fun same : path_index = other_index => differ (by rw [same]) with
      less | more
    · exact apart index index le_rfl inside _ small _ small' (fun _ => less) here there
    · rw [pathEqualsIgnoreCase_comm]
      exact apart index index le_rfl inside _ small' _ small (fun _ => more) there here
  · rw [pathEqualsIgnoreCase_comm]
    exact apart other index after.le inside _ small' _ small (by omega) there here

theorem journal_paths_distinct_sample :
    pathEqualsIgnoreCase (sampleBatch.pathAt 0 1) (sampleBatch.pathAt 0 2) = false :=
  (journal_paths_distinct 1 sampleBatch).2 (by decide +kernel) 0 (by decide) 0 (by decide) 1
    (by decide) 2 (by decide) (by decide) (by simp) (by simp)

end R4OS.Update
