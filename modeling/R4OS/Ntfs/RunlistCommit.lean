import R4OS.Ntfs.FileStream

/-!
# Committing a run list

The run list that a commit stores is the run list that is collected afterwards, also when the data
attribute moves to a record of its own.  Records of other files stay.
-/

namespace R4OS.Ntfs

open Crash Text

section

variable {v : Volume}

variable {runs : List Run} {record : FileRecord} {data_size init_size alloc_size number : Nat}
  {before state : VolumeState} {status : WriteStatus}

theorem encodeRuns_bounds {capacity : Nat} {previous : Int} {pairs : Bytes}
    (encoded : encodeRuns capacity previous runs = some pairs) :
    ∀ run ∈ runs, 0 < run.length_clusters ∧ ∀ lcn, run.lcn = some lcn → lcn < 2 ^ 63 := by
  induction runs generalizing capacity previous pairs with
  | nil => simp
  | cons run rest induction =>
    unfold encodeRuns at encoded
    split at encoded
    · cases encoded
    rename_i bounded
    obtain ⟨pair, pair_eq, encoded⟩ := Option.bind_eq_some_iff.mp encoded
    obtain ⟨pairs', pairs_eq, -⟩ := Option.bind_eq_some_iff.mp encoded
    intro run' member
    rcases List.mem_cons.mp member with rfl | member
    · refine ⟨?_, fun lcn located => ?_⟩
      · by_contra empty
        unfold encodeRun at pair_eq
        rw [if_pos (by omega)] at pair_eq
        cases pair_eq
      · simp only [located, Option.getD_some, not_or] at bounded
        omega
    · exact induction pairs_eq run' member

theorem runClusters_foldl {sum total : Nat}
    (summed : runs.foldlM (fun sum run => checkedAddU64 sum run.length_clusters) sum =
      some total) (sum_lt : sum < 2 ^ 64) :
    total = sum + (clusterMap runs).length ∧ total < 2 ^ 64 ∧
      ∀ run ∈ runs, run.length_clusters < 2 ^ 64 := by
  induction runs generalizing sum with
  | nil =>
    cases summed
    exact ⟨by simp, sum_lt, by simp⟩
  | cons run rest induction =>
    rw [List.foldlM_cons] at summed
    obtain ⟨next, next_eq, summed⟩ := Option.bind_eq_some_iff.mp summed
    obtain ⟨small, rfl⟩ := checkedAddU64_eq_some.mp next_eq
    obtain ⟨rfl, total_lt, rest_small⟩ := induction summed small
    refine ⟨by simp [Nat.add_assoc], total_lt, fun run' member => ?_⟩
    rcases List.mem_cons.mp member with rfl | member
    · omega
    · exact rest_small run' member

theorem runClusters_eq_some {total : Nat} (summed : runClusters runs = some total) :
    total = (clusterMap runs).length ∧ total < 2 ^ 64 ∧
      ∀ run ∈ runs, run.length_clusters < 2 ^ 64 := by
  have bounds := runClusters_foldl summed (by norm_num)
  rwa [Nat.zero_add] at bounds

theorem captureRuns_valid {collected runs : List Run} {clusters : Nat}
    (valid : ∀ run ∈ runs, mappedRunPhysicalRangeValid v run = true)
    (short : collected.length + runs.length ≤ MAX_ATTR_RUNS)
    (small : clusters + (clusterMap runs).length < 2 ^ 64) :
    captureRuns v collected runs clusters =
      some (collected ++ runs, clusters + (clusterMap runs).length) := by
  induction runs generalizing collected clusters with
  | nil => simp [captureRuns]
  | cons run rest induction =>
    simp only [clusterMap_cons, List.length_append, Run.clusters_length,
      List.length_cons] at short small
    have next := @induction (collected ++ [run]) (clusters + run.length_clusters)
      (fun run member => valid run (.tail _ member))
      (by simp only [List.length_append, List.length_singleton]; omega) (by omega)
    unfold captureRuns
    rw [checkedAddU64, if_pos (by omega)]
    simp only [Option.bind_eq_bind, Option.bind_some]
    rw [if_pos (by simp [valid run List.mem_cons_self]; omega), next]
    simp [Nat.add_assoc]

/-- A stream that is kept outside its record. -/
def AttrScratch.nonResident (flags : AttributeFlags) (runs : List Run)
    (data_size initialized_size alloc_size : Nat) : AttrScratch where
  flags := flags
  resident := none
  runs := runs
  data_size := data_size
  initialized_size := initialized_size
  alloc_size := alloc_size

/-- The place of an attribute that begins a stream outside its record. -/
def DataAttribute.Begins (attr : DataAttribute) : Prop :=
  ∃ fields, attr.body = .non_resident fields ∧ fields.lowest_vcn = 0

/-- A record with a rewritten run list is collected with that run list. -/
theorem updateNonResident_eq_some {updated : FileRecord} {old : DataAttribute}
    (stored : record.updateNonResident v runs data_size init_size alloc_size = some updated)
    (data : record.data = some old) (begins : old.Begins) (sizes : init_size ≤ data_size)
    (valid : runlistPhysicalRangeValid v runs = true) (short : runs.length ≤ MAX_ATTR_RUNS)
    (nonempty : (clusterMap runs).length ≠ 0) :
    ∃ attr, updated = { record with data := some attr } ∧ attr.Begins ∧
      attr.instance_id = old.instance_id ∧
      captureAttribute v attr none = some
        (.nonResident old.flags runs data_size init_size alloc_size, (clusterMap runs).length) := by
  obtain ⟨fields, body, lowest⟩ := begins
  obtain ⟨_, data', stored⟩ := Option.bind_eq_some_iff.mp stored
  rw [data] at data'
  cases data'
  simp only [body] at stored
  obtain ⟨mapping, mapping_eq, stored⟩ := Option.bind_eq_some_iff.mp stored
  obtain ⟨total, total_eq, stored⟩ := Option.bind_eq_some_iff.mp stored
  split at stored
  · cases stored
  obtain ⟨resized, resized_eq, stored⟩ := Option.bind_eq_some_iff.mp stored
  obtain ⟨mapped, mapped_eq, stored⟩ := Option.bind_eq_some_iff.mp stored
  split at stored
  · cases stored
  cases stored
  obtain ⟨rfl, total_lt, run_lt⟩ := runClusters_eq_some total_eq
  have resized_keeps : resized.instance_id = old.instance_id ∧ resized.flags = old.flags := by
    unfold FileRecord.resizeAttr at resized_eq
    split at resized_eq
    · cases resized_eq
      exact ⟨rfl, rfl⟩
    split at resized_eq
    · cases resized_eq
    · cases resized_eq
      exact ⟨rfl, rfl⟩
  have bounds := encodeRuns_bounds mapping_eq
  have decoded := readMappingPairs_encodeRuns
    (fun run member => ⟨(bounds run member).1, run_lt run member, (bounds run member).2⟩) mapping_eq
  rw [runlistPhysicalRangeValid, Bool.and_eq_true] at valid
  have captured := @captureRuns_valid v [] runs 0
    (mappedRunPhysicalRangeValid_of_clusters valid.2) (by simpa using short) (by omega)
  have extent : checkedAddU64 ((clusterMap runs).length - 1) 1 = some (clusterMap runs).length :=
    checkedAddU64_eq_some.mpr ⟨by omega, by omega⟩
  refine ⟨_, rfl, ⟨_, rfl, lowest⟩, resized_keeps.1, ?_⟩
  simp only [captureAttribute, lowest, sizes, and_self, if_true, Nat.not_lt_zero, if_false,
    Option.bind_eq_bind, Option.bind_some, Nat.sub_zero, decoded, extent, captured,
    List.nil_append, Nat.zero_add, resized_keeps.2]
  rfl

theorem Returns.require_always {Result : Type} {post : Result → VolumeState → Prop} {step : VolumeProgram Bool} {failed next : VolumeProgram Result}
    (failing : ∀ during, Returns v post failed during)
    (succeeding : ∀ during, Returns v post next during) :
    Returns v post (Ntfs.require step failed next) before :=
  (Returns.trivial step).guards failing fun during _ => succeeding during

theorem Returns.bind_always {First Second : Type} {post : Second → VolumeState → Prop} {program : VolumeProgram First} {rest : First → VolumeProgram Second}
    (next : ∀ result during, Returns v post (rest result) during) :
    Returns v post (program >>= rest) before :=
  Returns.seq (.trivial program) fun result during _ => next result during

/-- A program that reports no success. -/
def Rejects (v : Volume) (program : VolumeProgram WriteStatus) : Prop :=
  ∀ before, Returns v (fun status _ => status ≠ .ok) program before

theorem Rejects.unless {program : VolumeProgram WriteStatus}
    {post : WriteStatus → VolumeState → Prop} (rejects : Rejects v program) (before : VolumeState) :
    Returns v (fun status after => status = .ok → post status after) program before :=
  (rejects before).mono fun _ _ failed ok => absurd ok failed

theorem abortWrite_rejects (failed : status ≠ .ok) :
    Rejects v (abortWrite v status) := by
  intro before
  have uncertain : Rejects v (do
      let _ ← markWriteUncertain v
      return .cleanup_failed) :=
    fun _ => .bind_always fun _ _ => .pure (by simp)
  unfold abortWrite
  split
  · exact .pure failed
  · exact .require_always uncertain fun _ =>
      Returns.require_always uncertain fun _ => .pure failed

theorem abortWriteAfterCommitFailure_rejects (failed : status ≠ .ok) :
    Rejects v (abortWriteAfterCommitFailure v status) := by
  intro before
  unfold abortWriteAfterCommitFailure
  split
  · exact .pure failed
  · exact abortWrite_rejects failed before

theorem abortWriteFreeing_rejects (failed : status ≠ .ok) :
    Rejects v (abortWriteFreeing v runs status) := by
  intro before
  unfold abortWriteFreeing
  split
  · exact .pure failed
  split
  · exact abortWrite_rejects failed before
  · exact .require_always (fun _ => .pure (by simp)) (abortWrite_rejects failed)

theorem rollbackUnpublishedRecord_rejects {record_stored : Bool} (failed : status ≠ .ok) :
    Rejects v (rollbackUnpublishedRecord v number record_stored status) := fun _ =>
  Returns.require_always (fun _ => .pure (by simp)) fun _ =>
    Returns.require_always (fun _ => .pure (by simp)) fun _ => .pure failed

theorem rollbackMftGrowth_rejects {published : Option FileRecord} {status : WriteStatus}
    (failed : status ≠ .ok) :
    Rejects v (rollbackMftGrowth v runs published status) := by
  intro before
  have uncertain : Rejects v (do
      let _ ← markWriteUncertain v
      return .cleanup_failed) :=
    fun _ => .bind_always fun _ _ => .pure (by simp)
  exact .require_always uncertain fun _ => .require_always uncertain fun _ =>
    Returns.require_always uncertain fun _ => .pure failed

theorem flush_returns (before : VolumeState) :
    Returns v (fun _ after => after = before) VolumeCall.flush.perform before :=
  Returns.perform rfl fun _ _ failed => failed.2

theorem collectRecordBitmap_returns (before : VolumeState) :
    Returns v (fun _ after => after = before) VolumeCall.collectRecordBitmap.perform before :=
  Returns.perform rfl fun _ _ failed => failed.2

theorem recordBit_returns (number : Nat) (before : VolumeState) :
    Returns v (fun bit after => after = before ∧ ∀ set, bit = some set →
      set = before.record_used number) (VolumeCall.recordBit number).perform before := by
  refine .perform ⟨rfl, ?_⟩ ?_
  · rintro set ⟨⟩
    rfl
  · rintro answer after ⟨rfl, rfl⟩
    exact ⟨rfl, by simp⟩

theorem storeRecord_returns (number : Nat) (record : FileRecord) (before : VolumeState) :
    Returns v (fun succeeded after => succeeded = true → after = { before with
        records := Function.update before.records number (.live record) })
      (storeRecord v number record) before := by
  unfold storeRecord storeSlot
  split
  · exact .pure (by simp)
  · refine .perform (fun _ => rfl) ?_
    rintro answer after ⟨rfl, -⟩
    simp

/-- A program after which the records and the clusters are the same. -/
structure Quiet (before after : VolumeState) : Prop where
  records : RecordsSame before after
  bytes : after.bytes = before.bytes
  used : after.cluster_used = before.cluster_used

theorem Quiet.refl : Quiet state state := ⟨.refl, rfl, rfl⟩

theorem Quiet.trans {during after : VolumeState} (first : Quiet before during)
    (second : Quiet during after) : Quiet before after :=
  ⟨first.records.trans second.records, second.bytes.trans first.bytes,
    second.used.trans first.used⟩

theorem Quiet.clustersKept {after : VolumeState} (quiet : Quiet before after)
    (own : Nat → Prop) : ClustersKept v own before after where
  used cluster used := by rwa [quiet.used]
  bytes address _ _ := by rw [quiet.bytes]

/-- What the record allocator relies on: records in use are marked, and the table addresses no more
records than its size says. -/
structure TableSound (v : Volume) (state : VolumeState) : Prop where
  marked : ∀ number record, state.record? number = some record → state.record_used number = true
  sized : ∀ attr, fileStream v state MFT_RECORD_MFT = .found attr →
    state.record_count ≤ attr.data_size / v.record_bytes

theorem zeroNewRecords_returns (cluster_bytes_pos : 0 < v.cluster_bytes) (runs : List Run)
    (before : VolumeState) :
    Returns v (fun succeeded after => succeeded = true →
      ClustersKept v (some · ∈ clusterMap runs) before after ∧ RecordsSame before after)
      (zeroNewRecords v runs) before := by
  induction runs generalizing before with
  | nil => exact .pure fun _ => ⟨.refl, .refl⟩
  | cons run rest induction =>
    unfold zeroNewRecords
    split
    · rename_i lcn run_bytes located run_bytes_eq
      obtain ⟨-, rfl⟩ := checkedMulU64_eq_some.mp run_bytes_eq
      refine (zeroLcnRange_returns (by decide) _ _ _ _ (by omega)).guards
        (fun _ => .pure (by simp)) fun during zeroed => ?_
      obtain rfl := zeroed rfl
      have head := @Zeroed.of_overwrite _ _ 0 _ run before cluster_bytes_pos located
        (Nat.le_refl (run.length_clusters * v.cluster_bytes))
      refine (induction _).mono fun succeeded after zeroed ok => ?_
      obtain ⟨kept, same⟩ := zeroed ok
      refine ⟨?_, head.recordsSame.trans same⟩
      refine @ClustersKept.trans v _ (some · ∈ clusterMap rest) _ _ _
        (head.clustersKept.weaken fun cluster member _ => ?_) kept fun cluster member _ => ?_
      · exact List.mem_append_left _ member
      · exact List.mem_append_right _ member
    · exact .pure (by simp)

/-- What growing the table leaves behind: an unused record behind the former ones. -/
structure Grown (v : Volume) (before after : VolumeState) (number : Nat) : Prop where
  clusters : ClustersKept v (fun _ => False) before after
  records : RecordsKept (· = MFT_RECORD_MFT) before after
  blank : after.records number = .blank
  behind : before.record_count ≤ number

theorem publishMftGrowth_returns {data_attr : AttrScratch} {new_runs : List Run} (sized : before.record_count ≤ data_attr.data_size / v.record_bytes) :
    Returns v (fun status after => status = .ok →
      Grown v before after (data_attr.data_size / v.record_bytes))
      (publishMftGrowth v data_attr new_runs) before := by
  have rejected : ∀ {published : Option FileRecord} {status : WriteStatus}, status ≠ .ok →
      ∀ during, Returns v (fun status after => status = .ok →
        Grown v before after (data_attr.data_size / v.record_bytes))
        (rollbackMftGrowth v new_runs published status) during :=
    fun failed during => (rollbackMftGrowth_rejects failed).unless _
  unfold publishMftGrowth
  simp only
  split
  · split
    · exact rejected (by simp) _
    refine (loadRecord_returns _ _).seq ?_
    rintro record during ⟨rfl, -⟩
    split
    · exact rejected (by simp) _
    split
    · exact rejected (by simp) _
    rename_i updated _
    split
    · exact rejected (by simp) _
    refine (storeRecord_returns _ _ _).guards (rejected (by simp)) fun after stored => ?_
    obtain rfl := stored rfl
    refine (flush_returns _).guards (rejected (by simp)) ?_
    rintro after rfl
    refine .seq (show Returns v (fun _ after => after = { during with
        record_count := data_attr.data_size / v.record_bytes + grow_records
        records := fun number =>
          if data_attr.data_size / v.record_bytes ≤ number ∧
              number < data_attr.data_size / v.record_bytes + grow_records then .blank
          else Function.update during.records MFT_RECORD_MFT (.live updated) number }) _ _ from
      Returns.perform rfl fun _ _ failed => failed.elim) ?_
    rintro _ after rfl
    refine .pure fun _ => ⟨⟨fun _ used => used, fun _ _ _ => rfl⟩, ⟨?_, ?_⟩, ?_, sized⟩
    · simp only [grow_records]
      omega
    · intro number record found foreign
      unfold VolumeState.record? at found ⊢
      split at found
      · rename_i inside
        rw [if_pos (by simp only [grow_records]; omega)]
        simp only
        rw [if_neg (by omega), Function.update_of_ne foreign, found]
      · cases found
    · simp [grow_records]
  · exact rejected (by simp) _

theorem growMft_returns (cluster_bytes_pos : 0 < v.cluster_bytes) (sound : TableSound v before) :
    Returns v (fun status after => status = .ok → ∃ data_attr,
      fileStream v before MFT_RECORD_MFT = .found data_attr ∧
        Grown v before after (data_attr.data_size / v.record_bytes))
      (growMft v) before := by
  unfold growMft
  refine (collectAttributeStatus_returns _ _).seq ?_
  rintro result during ⟨rfl, collected⟩
  cases result with
  | not_found | io => exact .pure (by simp)
  | found data_attr =>
    have stream := collected data_attr rfl
    simp only
    split
    · exact .pure (by simp)
    refine (collectRecordBitmap_returns _).guards (fun _ => .pure (by simp)) ?_
    rintro after rfl
    split
    · split
      · exact .pure (by simp)
      split
      · exact .pure (by simp)
      split
      · exact .pure (by simp)
      refine (allocateClusters_returns _ _ _).seq ?_
      intro result during producing
      cases result with
      | failed status =>
        simp only
        split
        · exact .bind_always fun _ _ => .pure fun ok => absurd ok producing
        · exact .pure fun ok => absurd ok producing
      | produced new_runs =>
        have allocated := producing.1
        have rejected := @rollbackMftGrowth_rejects v new_runs none .io (by simp)
        refine (flush_returns _).guards rejected.unless ?_
        rintro flushed rfl
        refine (zeroNewRecords_returns cluster_bytes_pos _ _).guards
          rejected.unless fun zeroed zeroing => ?_
        obtain ⟨kept, same⟩ := zeroing rfl
        have same := allocated.recordsSame.trans same
        have sized := sound.sized data_attr stream
        rw [← same.record_count] at sized
        refine (publishMftGrowth_returns sized).mono fun status final grown ok => ?_
        have grown := grown ok
        refine ⟨data_attr, stream, ⟨?_, ?_, grown.blank, ?_⟩⟩
        · exact ((allocated.clustersKept fun _ => False).trans kept
            allocated.planned.foreign).trans grown.clusters fun _ owned _ => owned
        · exact same.kept.trans grown.records fun number member => .inl member
        · rw [← same.record_count]
          exact grown.behind
    · exact .pure (by simp)

theorem searchRecord_returns {record_count start : Nat} (rounds number last : Nat)
    (wrapped : Bool) (before : VolumeState) :
    Returns v (fun result after => after = before ∧ ∀ found, result = some found →
      found = record_count ∨ before.record_used found = false)
      (searchRecord record_count start rounds number last wrapped) before := by
  induction rounds generalizing number last wrapped with
  | zero =>
    refine .pure ⟨rfl, ?_⟩
    rintro found ⟨⟩
    exact .inl rfl
  | succ rounds induction =>
    unfold searchRecord
    split
    · refine .pure ⟨rfl, ?_⟩
      rintro found ⟨⟩
      exact .inl rfl
    · refine (recordBit_returns _ _).seq ?_
      rintro bit after ⟨rfl, bit_eq⟩
      cases bit with
      | none => exact .pure ⟨rfl, by simp⟩
      | some set =>
        cases set with
        | false =>
          refine .pure ⟨rfl, ?_⟩
          rintro found ⟨⟩
          exact .inr (bit_eq false rfl).symm
        | true => exact induction _ _ _

/-- A record that was not in use and that the table addresses. -/
structure FreshRecord (v : Volume) (before after : VolumeState) (number : Nat) : Prop where
  clusters : ClustersKept v (fun _ => False) before after
  records : RecordsKept (· = MFT_RECORD_MFT) before after
  inside : number < after.record_count
  unused : before.record? number = none

theorem setRecordSearchStart_returns (next : Nat → Nat) (before : VolumeState) :
    Returns v (fun _ after => after = { before with scratch := after.scratch })
      (setRecordSearchStart next) before := by
  refine (readScratch_returns before).seq ?_
  rintro scratch during ⟨rfl, -⟩
  refine (setScratch_returns _ _).mono fun _ after changed => ?_
  rw [changed]

theorem markRecord_returns (unused : before.record? number = none) :
    Returns v (fun result after => (∀ status, result = .failed status → status ≠ .ok) ∧
      ∀ found sequence, result = .allocated found sequence →
        found = number ∧ FreshRecord v before after number)
      (markRecord v number) before := by
  unfold markRecord
  refine (loadSlot_returns _ _).seq ?_
  rintro slot after ⟨rfl, loaded⟩
  cases slot with
  | none => exact .pure ⟨by rintro _ ⟨⟩; simp, by simp⟩
  | some slot =>
    obtain ⟨inside, rfl⟩ := loaded slot rfl
    refine .require (.mono (?_ : Returns v (fun succeeded during => succeeded = true →
      during = { after with
        record_used := Function.update after.record_used number true }) _ _) ?_)
    · unfold patchRecordBit
      split
      · exact .pure (by simp)
      · refine .perform (fun _ => rfl) ?_
        rintro answer after ⟨rfl, -⟩
        simp
    · intro succeeded during patched
      refine ⟨fun ok => ?_, fun _ => ?_⟩
      · obtain rfl := patched ok
        refine (setRecordSearchStart_returns _ _).seq fun _ final changed => ?_
        refine .pure ⟨by simp, ?_⟩
        rintro found sequence ⟨⟩
        rw [changed]
        exact ⟨rfl, ⟨fun _ used => used, fun _ _ _ => rfl⟩, ⟨.refl, fun _ _ found _ => found⟩,
          inside, unused⟩
      · refine .bind_always fun flushed _ => ?_
        split
        · exact .pure ⟨by rintro _ ⟨⟩; simp, by simp⟩
        · exact .bind_always fun _ _ => .pure ⟨by rintro _ ⟨⟩; simp, by simp⟩

theorem allocateRecord_returns (cluster_bytes_pos : 0 < v.cluster_bytes)
    (sound : TableSound v before) :
    Returns v (fun result after => (∀ status, result = .failed status → status ≠ .ok) ∧
      ∀ number sequence, result = .allocated number sequence → FreshRecord v before after number)
      (allocateRecord v) before := by
  have io : ∀ during, Returns v (fun (result : RecordAllocation) after =>
      (∀ status, result = .failed status → status ≠ .ok) ∧
      ∀ number sequence, result = .allocated number sequence → FreshRecord v before after number)
      (return .failed .io) during := fun _ => .pure ⟨by rintro _ ⟨⟩; simp, by simp⟩
  unfold allocateRecord
  split
  · exact io before
  refine (collectRecordBitmap_returns _).guards io ?_
  rintro after rfl
  refine (collectAttributeStatus_returns _ _).seq ?_
  rintro result during ⟨rfl, collected⟩
  cases result with
  | not_found | io => exact io during
  | found data_attr =>
    have stream := collected data_attr rfl
    refine (readScratch_returns _).seq ?_
    rintro scratch after ⟨rfl, -⟩
    refine (searchRecord_returns _ _ _ _ _).seq ?_
    rintro result during ⟨rfl, searched⟩
    cases result with
    | none => exact io during
    | some number =>
      simp only
      split
      · rename_i inside
        have unused : during.record? number = none := by
          cases found : during.record? number with
          | none => rfl
          | some record =>
            rcases searched number rfl with rfl | free
            · omega
            · rw [sound.marked number record found] at free
              cases free
        refine (markRecord_returns unused).mono fun result after => ?_
        rintro ⟨failing, marked⟩
        exact ⟨failing, fun found sequence allocated =>
          (marked found sequence allocated).1 ▸ (marked found sequence allocated).2⟩
      · refine (growMft_returns cluster_bytes_pos sound).seq fun status after growing => ?_
        split
        · obtain ⟨data_attr', stream', grown⟩ := growing rfl
          rw [stream] at stream'
          obtain rfl : data_attr = data_attr' := by injection stream'
          refine (collectRecordBitmap_returns _).guards io ?_
          rintro collected rfl
          refine (recordBit_returns _ _).seq ?_
          rintro bit final ⟨rfl, -⟩
          cases bit with
          | none => exact io final
          | some set =>
            have blank : final.record? (data_attr.data_size / v.record_bytes) = none := by
              unfold VolumeState.record?
              split
              · rw [grown.blank]
                rfl
              · rfl
            refine (markRecord_returns blank).mono fun result after => ?_
            rintro ⟨failing, marked⟩
            refine ⟨failing, fun found sequence allocated => ?_⟩
            obtain ⟨rfl, fresh⟩ := marked found sequence allocated
            refine ⟨grown.clusters.trans fresh.clusters fun _ owned _ => owned,
              grown.records.trans fresh.records fun _ member => .inl member, fresh.inside, ?_⟩
            rw [VolumeState.record?, if_neg (Nat.not_lt.mpr grown.behind)]
        · rename_i failed
          exact .pure ⟨by rintro _ ⟨⟩; exact failed, by simp⟩

/-- Where a file keeps its data: in its base record without an attribute list, or in the records
that its attribute list names.  A list with a single entry names another record, and then the base
record has no data itself. -/
def DataPlaced (state : VolumeState) (number : Nat) : Prop :=
  ∀ base list rest, state.record? number = some base → base.attribute_lists = list :: rest →
    list.entries ≠ some [] ∧ ∀ entry, list.entries = some [entry] →
      entry.mft_reference.record ≠ number ∧ base.data = none

structure Spilled (state : VolumeState) (number : Nat) (base extension : FileRecord)
    (entry : AttributeListEntry) (data : DataAttribute) : Prop where
  base_found : state.record? number = some base
  listed : ∃ length rest, base.attribute_lists = ⟨length, some [entry]⟩ :: rest
  lowest : entry.lowest_vcn = 0
  extension_found : state.record? entry.mft_reference.record = some extension
  sequence : extension.sequence = entry.mft_reference.sequence
  based : extension.base_record = some ⟨number, base.sequence⟩
  data_eq : extension.data = some data
  instance_eq : data.instance_id = entry.instance_id
  begins : data.Begins

theorem dataExtensionRecordStatus_returns (placed : DataPlaced before number) :
    Returns v (fun result after => after = before ∧
      match result with
      | .io => True
      | .not_found => ∃ base, before.record? number = some base ∧ base.attribute_lists = []
      | .found reference => ∃ base extension entry data,
          Spilled before number base extension entry data ∧ reference = entry.mft_reference ∧
            reference.record ≠ number)
      (dataExtensionRecordStatus number) before := by
  unfold dataExtensionRecordStatus
  refine (loadRecord_returns _ _).seq ?_
  rintro base after ⟨rfl, loaded⟩
  cases base with
  | none => exact .pure ⟨rfl, trivial⟩
  | some base =>
    have found := loaded base rfl
    simp only
    split
    · rename_i lists
      exact .pure ⟨rfl, base, found, lists⟩
    · exact .pure ⟨rfl, trivial⟩
    · rename_i lists
      exact absurd rfl (placed base _ _ found lists).1
    · rename_i length entry rest lists
      have elsewhere := ((placed base _ _ found lists).2 entry rfl).1
      split
      · exact .pure ⟨rfl, trivial⟩
      rename_i lowest
      refine (loadRecord_returns _ _).seq ?_
      rintro extension during ⟨rfl, loaded⟩
      cases extension with
      | none => exact .pure ⟨rfl, trivial⟩
      | some extension =>
        simp only
        split
        · rename_i matched
          obtain ⟨sequence, based, placed⟩ := matched
          split at placed
          · rename_i instance_id flags length fields data
            simp only [Bool.and_eq_true, decide_eq_true_eq] at placed
            refine .pure ⟨rfl, base, extension, entry, _, ⟨found, ⟨_, _, lists⟩,
              not_not.mp lowest, loaded extension rfl, sequence, based, data, placed.1,
              fields, rfl, placed.2⟩, rfl, elsewhere⟩
          · cases placed
        · exact .pure ⟨rfl, trivial⟩
    · exact .pure ⟨rfl, trivial⟩

theorem captureAttribute_cases {attr : DataAttribute} {collected : Option (AttrScratch × Nat)}
    {stream : AttrScratch} {next_vcn : Nat}
    (captured : captureAttribute v attr collected = some (stream, next_vcn)) :
    (collected = none ∧ ∃ value_offset value, attr.body = .resident value_offset value ∧
      stream.resident = some value ∧ attr.flags = stream.flags ∧ stream.runs = [] ∧
      stream.data_size = value.length) ∨
    stream.resident = none ∧ (collected = none → attr.Begins ∧ attr.flags = stream.flags) := by
  unfold captureAttribute at captured
  split at captured
  · rename_i value_offset value body
    split at captured
    · cases captured
    · rename_i first
      cases captured
      exact .inl ⟨by simpa using fun some => first (.inl some), value_offset, value, body, rfl, rfl,
        rfl, rfl⟩
  · rename_i fields body
    simp only at captured
    split at captured
    · cases captured
    obtain ⟨begun, begun_eq, captured⟩ := Option.bind_eq_some_iff.mp captured
    obtain ⟨_, -, captured⟩ := Option.bind_eq_some_iff.mp captured
    obtain ⟨_, -, captured⟩ := Option.bind_eq_some_iff.mp captured
    obtain ⟨⟨_, _⟩, -, captured⟩ := Option.bind_eq_some_iff.mp captured
    obtain ⟨_, -, captured⟩ := Option.bind_eq_some_iff.mp captured
    split at captured <;> cases captured
    right
    split at begun_eq
    · obtain ⟨begins, ⟨⟩⟩ := Option.ite_none_right_eq_some.mp begun_eq
      exact ⟨rfl, fun _ => ⟨⟨fields, body, begins.1⟩, rfl⟩⟩
    · obtain ⟨begins, ⟨⟩⟩ := Option.ite_none_right_eq_some.mp begun_eq
      exact ⟨begins.1, nofun⟩

theorem captureAttribute_begins {attr : DataAttribute} {stream : AttrScratch} {next_vcn : Nat}
    (captured : captureAttribute v attr none = some (stream, next_vcn))
    (outside : stream.resident = none) : attr.Begins ∧ attr.flags = stream.flags := by
  obtain ⟨-, _, _, -, inside, -⟩ | ⟨-, begins⟩ := captureAttribute_cases captured
  · rw [outside] at inside
    cases inside
  · exact begins rfl

theorem fileStream_direct {number : Nat} {base : FileRecord}
    (found : state.record? number = some base) (unlisted : base.attribute_lists = []) :
    fileStream v state number = collectDirect v base := by
  simp [fileStream, found, unlisted]

theorem Spilled.fileStream {base extension : FileRecord}
    {entry : AttributeListEntry} {data : DataAttribute}
    (spilled : Spilled state number base extension entry data) :
    fileStream v state number =
      match captureAttribute v data none with
      | none => .io
      | some (collected, _) => .found collected := by
  obtain ⟨length, rest, lists⟩ := spilled.listed
  obtain ⟨fields, body, lowest⟩ := spilled.begins
  have placed : listedAttribute number base.sequence entry extension = some data := by
    simp [listedAttribute, spilled.sequence, spilled.based, spilled.data_eq, spilled.instance_eq,
      body, lowest, spilled.lowest]
  simp only [Ntfs.fileStream, spilled.base_found, lists, listedStream, spilled.extension_found,
    Option.bind_eq_bind, Option.bind_some, placed]
  cases captureAttribute v data none with
  | none | some captured => rfl

/-- The records that a write to a file may change. -/
def OwnRecord (state : VolumeState) (number : Nat) (changed : Nat) : Prop :=
  changed = MFT_RECORD_MFT ∨ changed = number ∨
    ∃ record sequence, state.record? changed = some record ∧
      record.base_record = some ⟨number, sequence⟩

/-- A run list and sizes that a file has got, and nothing else. -/
structure Committed (v : Volume) (number : Nat) (runs : List Run)
    (data_size init_size alloc_size : Nat) (before after : VolumeState) : Prop where
  stream : ∃ flags : AttributeFlags, flags.compressed = false ∧ flags.encrypted = false ∧
    fileStream v after number =
      .found (.nonResident flags runs data_size init_size alloc_size)
  clusters : ClustersKept v (fun _ => False) before after
  records : RecordsKept (OwnRecord before number) before after

theorem record?_update (inside : number < state.record_count) :
    VolumeState.record?
      { state with records := Function.update state.records number (.live record) } number =
        some record := by
  simp [VolumeState.record?, inside, RecordSlot.record?]

theorem record?_update_ne {other : Nat} (different : other ≠ number) :
    VolumeState.record?
      { state with records := Function.update state.records number (.live record) } other =
        state.record? other := by
  simp [VolumeState.record?, different]

theorem record?_inside
    (found : state.record? number = some record) : number < state.record_count := by
  unfold VolumeState.record? at found
  split at found
  · assumption
  · cases found

theorem RecordsKept.of_update {exempt : Nat → Prop} {number : Nat} {record : FileRecord}
    (exempted : exempt number) :
    RecordsKept exempt state
      { state with records := Function.update state.records number (.live record) } where
  count := .refl
  record other found_record found foreign := by
    have different : other ≠ number := by
      rintro rfl
      exact foreign exempted
    rwa [record?_update_ne different]

/-- Storing a rewritten data attribute where the data of the file is. -/
structure Rewritable (v : Volume) (runs : List Run) (data_size init_size : Nat) : Prop where
  sizes : init_size ≤ data_size
  valid : runlistPhysicalRangeValid v runs = true
  short : runs.length ≤ MAX_ATTR_RUNS
  nonempty : (clusterMap runs).length ≠ 0

theorem spillDataToExtension_returns (cluster_bytes_pos : 0 < v.cluster_bytes) {base : FileRecord} (sound : TableSound v before)
    (normal : number ≠ MFT_RECORD_MFT) (found : before.record? number = some base)
    (unlisted : base.attribute_lists = []) (rewritable : Rewritable v runs data_size init_size) :
    Returns v (fun status after => status = .ok →
      Committed v number runs data_size init_size alloc_size before after)
      (spillDataToExtension v number runs data_size init_size alloc_size) before := by
  unfold spillDataToExtension
  refine (loadRecord_returns _ _).seq ?_
  rintro loaded_base after ⟨rfl, loaded⟩
  cases loaded_base with
  | none => exact .pure (by simp)
  | some loaded_base =>
    have same_base := loaded loaded_base rfl
    rw [found] at same_base
    cases same_base
    refine (allocateRecord_returns cluster_bytes_pos sound).seq ?_
    rintro result during ⟨failing, allocating⟩
    cases result with
    | failed status => exact .pure fun ok => absurd ok (failing status rfl)
    | allocated ext_number ext_seq =>
      have fresh := allocating ext_number ext_seq rfl
      simp only
      split
      · exact (rollbackUnpublishedRecord_rejects (by simp)).unless _
      rename_i extension extension_eq
      obtain ⟨attr, extension_shape, begins, instance_eq, captured⟩ :=
        updateNonResident_eq_some extension_eq rfl ⟨_, rfl, rfl⟩ rewritable.sizes
          rewritable.valid rewritable.short rewritable.nonempty
      have different : number ≠ ext_number := by
        rintro rfl
        rw [fresh.unused] at found
        cases found
      have kept := fresh.records.record number base found normal
      have rejected : Rejects v (rollbackUnpublishedRecord v ext_number true .io) :=
        rollbackUnpublishedRecord_rejects (by simp)
      refine (storeRecord_returns _ _ _).guards
        (fun _ => .pure (by simp)) fun stored storing => ?_
      have stored_eq := storing rfl
      have base_found : stored.record? number = some base := by
        rw [stored_eq, record?_update_ne different, kept]
      have extension_found : stored.record? ext_number = some extension := by
        rw [stored_eq]
        exact record?_update fresh.inside
      refine (flush_returns _).guards rejected.unless ?_
      rintro flushed rfl
      unfold spillBase
      refine (loadRecord_returns _ _).seq ?_
      rintro again_base again ⟨rfl, loaded⟩
      cases again_base with
      | none => exact rejected.unless _
      | some again_base =>
        have same_base := loaded again_base rfl
        rw [base_found] at same_base
        cases same_base
        simp only
        split
        · exact rejected.unless _
        split
        · exact rejected.unless _
        rename_i removed removed_eq
        split
        · exact (rollbackUnpublishedRecord_rejects (by simp)).unless _
        rename_i updated updated_eq
        obtain ⟨_, -, rfl⟩ := Option.map_eq_some_iff.mp removed_eq
        have updated_shape : updated.sequence = base.sequence ∧
            updated.attribute_lists =
              [⟨spill_list_length, some [⟨0, ⟨ext_number, ext_seq⟩, 0⟩]⟩] := by
          unfold FileRecord.insertAttributeList at updated_eq
          split at updated_eq
          · cases updated_eq
          · cases updated_eq
            exact ⟨rfl, by rw [unlisted]; rfl⟩
        refine .require ((storeRecord_returns _ _ _).mono
          fun succeeded final finishing => ?_)
        refine ⟨fun ok => .pure fun _ => ?_, fun _ => .pure (by simp)⟩
        have final_eq := finishing ok
        have spilled : Spilled final number updated extension
            ⟨0, ⟨ext_number, ext_seq⟩, 0⟩ attr := by
          refine ⟨?_, ⟨_, _, updated_shape.2⟩, rfl, ?_, ?_, ?_, ?_, instance_eq, begins⟩
          · rw [final_eq]
            exact record?_update (record?_inside base_found)
          · rw [final_eq, record?_update_ne (Ne.symm different), extension_found]
          · rw [extension_shape]
          · rw [extension_shape, updated_shape.1]
          · rw [extension_shape]
        refine ⟨⟨⟨false, false, false⟩, rfl, rfl, ?_⟩, ?_, ?_⟩
        · rw [spilled.fileStream, captured]
          rfl
        · rw [final_eq, stored_eq]
          exact ⟨fresh.clusters.used, fresh.clusters.bytes⟩
        · rw [final_eq, stored_eq]
          refine @RecordsKept.trans _ (fun n => n = number ∨ n = ext_number) _ _ _
            (fresh.records.weaken fun _ table => .inl (.inl table)) ?_ ?_
          · exact (RecordsKept.of_update (.inr rfl)).trans (RecordsKept.of_update (.inl rfl))
              fun _ member => .inl member
          · rintro other (rfl | rfl)
            · exact .inl (.inr (.inl rfl))
            · exact .inr fresh.unused

/-- A commit that reports success has given the file the run list and the sizes. -/
theorem commitDataRunlist_returns (cluster_bytes_pos : 0 < v.cluster_bytes) {attr : AttrScratch}
    (sound : TableSound v before) (normal : number ≠ MFT_RECORD_MFT)
    (placed : DataPlaced before number) (stream : fileStream v before number = .found attr)
    (outside : attr.resident = none) (plain : attr.flags.compressed = false)
    (clear : attr.flags.encrypted = false) (rewritable : Rewritable v runs data_size init_size) :
    Returns v (fun status after => status = .ok →
      Committed v number runs data_size init_size alloc_size before after)
      (commitDataRunlist v number runs data_size init_size alloc_size) before := by
  unfold commitDataRunlist
  refine (dataExtensionRecordStatus_returns placed).seq ?_
  rintro status after ⟨rfl, located⟩
  cases status with
  | io => exact .pure (by simp)
  | not_found =>
    obtain ⟨base, found, unlisted⟩ := located
    rw [fileStream_direct found unlisted, collectDirect] at stream
    split at stream
    · cases stream
    rename_i old data
    split at stream
    · cases stream
    rename_i collected next_vcn captured
    cases stream
    obtain ⟨begins, flags⟩ := captureAttribute_begins captured outside
    refine (loadRecord_returns _ _).seq ?_
    rintro loaded_base during ⟨rfl, loaded⟩
    cases loaded_base with
    | none => exact .pure (by simp)
    | some loaded_base =>
      have same_base := loaded loaded_base rfl
      rw [found] at same_base
      cases same_base
      simp only
      split
      · rename_i updated updated_eq
        obtain ⟨attr', rfl, -, -, captured'⟩ := updateNonResident_eq_some updated_eq data begins
          rewritable.sizes rewritable.valid rewritable.short rewritable.nonempty
        refine .require ((storeRecord_returns _ _ _).mono fun succeeded final storing => ?_)
        refine ⟨fun ok => .pure fun _ => ?_, fun _ => .pure (by simp)⟩
        obtain rfl := storing ok
        refine ⟨⟨old.flags, flags ▸ plain, flags ▸ clear, ?_⟩, ⟨fun _ used => used, fun _ _ _ => rfl⟩,
          RecordsKept.of_update (.inr (.inl rfl))⟩
        rw [@fileStream_direct v _ _ { base with data := some attr' }
          (record?_update (record?_inside found)) unlisted]
        simp [collectDirect, captured']
      · exact spillDataToExtension_returns cluster_bytes_pos sound normal found unlisted rewritable
  | found reference =>
    obtain ⟨base, extension, entry, old, spilled, rfl, elsewhere⟩ := located
    rw [spilled.fileStream] at stream
    split at stream
    · cases stream
    rename_i collected next_vcn captured
    cases stream
    obtain ⟨-, flags⟩ := captureAttribute_begins captured outside
    refine (loadRecord_returns _ _).seq ?_
    rintro loaded_extension during ⟨rfl, loaded⟩
    cases loaded_extension with
    | none => exact .pure (by simp)
    | some loaded_extension =>
      have same_extension := loaded loaded_extension rfl
      rw [spilled.extension_found] at same_extension
      cases same_extension
      simp only
      split
      · exact .pure (by simp)
      split
      · exact .pure (by simp)
      rename_i updated updated_eq
      obtain ⟨attr', rfl, begins', instance_eq, captured'⟩ :=
        updateNonResident_eq_some updated_eq spilled.data_eq spilled.begins rewritable.sizes
          rewritable.valid rewritable.short rewritable.nonempty
      refine .require ((storeRecord_returns _ _ _).mono fun succeeded final storing => ?_)
      refine ⟨fun ok => .pure fun _ => ?_, fun _ => .pure (by simp)⟩
      obtain rfl := storing ok
      have spilled' : Spilled { during with
          records := Function.update during.records entry.mft_reference.record
            (.live { extension with data := some attr' }) }
          number base { extension with data := some attr' } entry attr' := by
        refine ⟨?_, spilled.listed, spilled.lowest,
          record?_update (record?_inside spilled.extension_found), spilled.sequence,
          spilled.based, rfl, instance_eq.trans spilled.instance_eq, begins'⟩
        rw [record?_update_ne (Ne.symm elsewhere)]
        exact spilled.base_found
      refine ⟨⟨old.flags, flags ▸ plain, flags ▸ clear, ?_⟩, ⟨fun _ used => used, fun _ _ _ => rfl⟩,
        RecordsKept.of_update (.inr (.inr ⟨_, _, spilled.extension_found, spilled.based⟩))⟩
      rw [spilled'.fileStream, captured']

end

end R4OS.Ntfs
