import R4OS.Ntfs.FileAppend

/-!
# Contents of files

Appends and overwrites that report success change the contents of their file as asked and leave all
other files alone.  The one exception is an append to a stream that is not sparse and whose clusters
hold stale bytes behind the initialized size.
-/

namespace R4OS.Ntfs

open Crash Text

section

variable {v : Volume}

variable {number offset : Nat} {attr : AttrScratch} {before after : VolumeState} {call : FileCall}

theorem isDirty_returns (before : VolumeState) :
    Returns v (fun _ after => after = before) VolumeCall.isDirty.perform before :=
  Returns.perform rfl fun _ _ failed => failed.2

theorem ensureDirtyDurable_returns (before : VolumeState) :
    Returns v (fun _ after => Quiet before after) (ensureDirtyDurable v) before := by
  unfold ensureDirtyDurable
  refine (readScratch_returns _).seq ?_
  rintro scratch after ⟨rfl, -⟩
  split
  · exact .pure .refl
  refine (isDirty_returns _).seq ?_
  rintro dirty during rfl
  split
  · exact .pure .refl
  · refine (flush_returns _).mono ?_
    rintro _ _ rfl
    exact .refl
  · exact setDirty_returns true _

/-- An overwrite that reports no success. -/
def RejectsWrite (v : Volume) (program : VolumeProgram WriteProgress) : Prop :=
  ∀ before, Returns v (fun progress _ => progress.status ≠ .ok) program before

theorem RejectsWrite.unless {program : VolumeProgram WriteProgress}
    {post : WriteProgress → VolumeState → Prop} (rejects : RejectsWrite v program)
    (before : VolumeState) :
    Returns v (fun progress after => progress.status = .ok → post progress after) program before :=
  (rejects before).mono fun _ _ failed ok => absurd ok failed

theorem markWriteUncertain_rejects : Rejects v (markWriteUncertain v) := fun _ =>
  Returns.bind_always fun marked _ => .bind_always fun _ _ => .bind_always fun _ _ =>
    Returns.pure (by cases marked <;> simp)

theorem uncertainWrite_rejects (completed : Nat) : RejectsWrite v (uncertainWrite v completed) :=
  fun before => (markWriteUncertain_rejects before).seq fun _ _ failed => .pure failed

/-- What an overwrite makes of a file. -/
def overwrittenByte (former : Nat → UInt8) (offset : Nat) (data : Bytes) (position : Nat) : UInt8 :=
  if offset ≤ position ∧ position < offset + data.length then data.getD (position - offset) 0
  else former position

/-- What an overwrite that reports success makes of a file. -/
abbrev WriteRewritten (v : Volume) (number offset : Nat) (attr : AttrScratch) (data : Bytes)
    (before after : VolumeState) : Prop :=
  Rewritten v number (some · ∈ clusterMap attr.runs) attr.data_size
    (overwrittenByte (attr.byteAt v before.bytes) offset data) before after

theorem WriteRewritten.after_quiet {data : Bytes}
    {during : VolumeState} (quiet : Quiet before during)
    (rewritten : WriteRewritten v number offset attr data during after) :
    WriteRewritten v number offset attr data before after := by
  simp only [WriteRewritten, quiet.bytes] at rewritten
  exact Rewritten.after_quiet quiet rewritten

theorem writeResident_returns {value data : Bytes} (file : FileAt v before number attr)
    (inside : attr.resident = some value) (room : offset + data.length ≤ attr.data_size) :
    Returns v (fun progress after => progress.status = .ok →
      WriteRewritten v number offset attr data before after)
      (writeResident v number offset value data) before := by
  obtain ⟨size, -⟩ := file.sound.resident value inside
  unfold writeResident
  refine (isDirty_returns _).seq ?_
  rintro dirty after rfl
  cases dirty with
  | none => exact .pure (by simp)
  | some previously_dirty =>
    refine (ensureDirtyDurable_returns _).guards
      (uncertainWrite_rejects 0).unless fun during quiet => ?_
    have file := file.quiet quiet
    refine (loadRecord_returns _ _).seq ?_
    rintro record loaded_state ⟨rfl, loaded⟩
    cases record with
    | none => exact .pure (by simp)
    | some record =>
      simp only
      split
      · exact .pure (by simp)
      rename_i short
      split
      · exact .pure (by simp)
      rename_i updated updated_eq
      refine .seq (?_ : Returns v (fun succeeded stored => succeeded = true → stored =
        { loaded_state with
          records := Function.update loaded_state.records number (.live updated) }) _ _) ?_
      · refine (storeRecord_returns _ _ _).guards
          (fun _ => .pure (by simp)) fun stored storing => ?_
        obtain rfl := storing rfl
        refine (flush_returns _).mono ?_
        rintro _ _ rfl _
        rfl
      intro succeeded stored storing
      cases succeeded with
      | true =>
        have stored_eq := storing rfl
        have length : (value.take offset ++ data ++
            value.drop (offset + data.length)).length = value.length := by
          simp only [List.length_append, List.length_take, List.length_drop]
          omega
        have rewritten := @FileAt.rewriteResident v number attr _ _ (some · ∈ clusterMap attr.runs) _ _ _ file inside
          (loaded record rfl) updated_eq (by omega)
        rw [← stored_eq] at rewritten
        refine .require (.mono (?_ : Returns v (fun _ after => Quiet stored after) _ _)
          fun succeeded final settled => ?_)
        · unfold restoreClean
          split
          · exact .pure .refl
          · exact setDirty_returns false _
        · refine ⟨fun _ => .pure fun _ => ?_,
            fun _ => (uncertainWrite_rejects _).unless _⟩
          rw [length] at rewritten
          refine WriteRewritten.after_quiet quiet ?_
          show Rewritten v number _ attr.data_size _ loaded_state final
          rw [size]
          refine (rewritten.congr fun position within => ?_).quiet settled
          simp only [overwrittenByte, AttrScratch.byteAt, inside, List.getD_eq_getElem?_getD]
          by_cases former : position < offset
          · rw [if_neg (by omega), List.append_assoc, List.getElem?_append_left (by simp; omega),
              List.getElem?_take_of_lt former]
          · by_cases written : position < offset + data.length
            · rw [if_pos ⟨by omega, written⟩, List.append_assoc,
                List.getElem?_append_right (by simp; omega),
                List.getElem?_append_left (by simp; omega)]
              congr 2
              simp only [List.length_take]
              omega
            · rw [if_neg (by omega), List.getElem?_append_right (by simp; omega),
                List.getElem?_drop]
              congr 2
              simp only [List.length_append, List.length_take]
              omega
      | false =>
        refine .bind_always fun restored _ => ?_
        cases restored with
        | true =>
          exact .require_always (fun _ => (uncertainWrite_rejects 0).unless _)
            fun _ => .pure (by simp)
        | false => exact .bind_always fun _ _ => .pure (by simp)

theorem writeSparse_returns {data : Bytes} (file : FileAt v before number attr) (outside : attr.resident = none)
    (nonempty : data ≠ []) (room : offset + data.length ≤ attr.data_size) :
    Returns v (fun progress after => progress.status = .ok →
      WriteRewritten v number offset attr data before after)
      (writeSparse v number offset attr data) before := by
  have rejected : ∀ {state : VolumeState}, Returns v (fun progress after => progress.status = .ok →
        WriteRewritten v number offset attr data before after) (uncertainWrite v 0) state :=
    (uncertainWrite_rejects 0).unless _
  have cluster_bytes_pos := file.cluster_bytes_pos
  have length := List.length_pos_of_ne_nil nonempty
  unfold writeSparse
  refine (ensureDirtyDurable_returns _).guards (fun _ => rejected) fun marked quiet => ?_
  have prepared := (file.quiet quiet).prepared outside
  refine (fillHolesInRuns_returns cluster_bytes_pos prepared.once prepared.used prepared.short).seq ?_
  rintro result filled ⟨failing, filling⟩
  cases result with
  | failed status =>
    exact (abortWrite_rejects (failing status rfl) _).seq fun _ _ failed =>
      Returns.pure fun ok => absurd ok failed
  | runs runs =>
    obtain ⟨short, filled_map⟩ := filling runs rfl
    have step := prepared.fill filled_map short
    have former := filled_map.streamByte cluster_bytes_pos prepared.used
    refine (flush_returns _).guards (fun _ => rejected) ?_
    rintro flushed rfl
    refine .require (.mono (?_ : Returns v (fun succeeded zeroed => succeeded = true →
      Zeroed v.cluster_bytes (clusterMap runs) attr.initialized_size offset flushed zeroed) _ _)
      fun succeeded zeroed zeroing => ?_)
    · split
      · exact zeroMappedRange_returns cluster_bytes_pos step.once
      · exact .pure fun _ => Zeroed.of_zero (by omega)
    refine ⟨fun ok => ?_, fun _ => rejected⟩
    have zeroing := zeroing ok
    have step := step.step zeroing.recordsSame zeroing.clustersKept
    refine (writeRunBytes_returns cluster_bytes_pos step.once).guards
      (fun _ => rejected) fun written writing => ?_
    obtain ⟨valid, writes⟩ := writing rfl
    have step := step.step writes.recordsSame (writes.clustersKept v rfl)
    refine (flush_returns _).guards (fun _ => rejected) ?_
    rintro flushed' rfl
    have initialized := file.sound.initialized outside
    refine (step.commit valid (by omega) (file.sound.room outside) (by omega)).seq ?_
    intro status committed committing
    split
    · refine (flush_returns _).guards (fun _ => rejected) ?_
      rintro settled rfl
      refine .require ((setDirty_returns _ _).mono fun succeeded final clean => ?_)
      refine ⟨fun _ => .pure fun _ => ?_, fun _ => rejected⟩
      refine WriteRewritten.after_quiet quiet ?_
      refine ((committing rfl).quiet clean).congr fun position within => ?_
      simp only [overwrittenByte, AttrScratch.byteAt, outside, writes.inside, zeroing.inside, former]
      split_ifs <;> first | rfl | omega
    · rename_i failed
      exact .bind_always fun _ _ => .pure fun ok => absurd ok failed

/-- An overwrite that reports success has rewritten the file. -/
theorem writeFileAtProgress_returns {data : Bytes} (file : FileAt v before number attr) :
    Returns v (fun progress after => progress.status = .ok →
      (data = [] ∧ Quiet before after) ∨
        (data ≠ [] ∧ offset + data.length ≤ attr.data_size ∧
          WriteRewritten v number offset attr data before after))
      (writeFileAtProgress v number offset data) before := by
  unfold writeFileAtProgress
  split
  · exact .pure (by simp)
  refine (readScratch_returns _).seq ?_
  rintro scratch after ⟨rfl, -⟩
  split
  · exact .pure (by simp)
  split
  · rename_i empty
    exact .pure fun _ => .inl ⟨empty, .refl⟩
  rename_i nonempty
  split
  · exact .pure (by simp)
  rename_i write_end write_end_eq
  obtain ⟨-, rfl⟩ := checkedAddU64_eq_some.mp write_end_eq
  refine (collectAttributeStatus_returns _ _).seq ?_
  rintro collected during ⟨rfl, collecting⟩
  cases collected with
  | not_found | io => exact .pure (by simp)
  | found attr' =>
    have same := collecting attr' rfl
    rw [file.stream] at same
    obtain rfl : attr = attr' := by injection same
    simp only
    split
    · exact .pure (by simp)
    split
    · exact .pure (by simp)
    rename_i room
    rw [Nat.not_lt] at room
    suffices Returns v (fun progress after => progress.status = .ok →
        WriteRewritten v number offset attr data during after)
        (writeCollected v number offset attr data (offset + data.length)) during from
      this.mono fun _ _ rewritten ok => .inr ⟨nonempty, room, rewritten ok⟩
    unfold writeCollected
    split
    · rename_i value inside
      exact writeResident_returns file inside room
    rename_i outside
    split
    · exact .pure (by simp)
    rename_i dense
    split
    · exact .pure (by simp)
    rename_i overlaps_hole _
    split
    · exact writeSparse_returns file outside nonempty room
    rename_i mapped
    have initialized : offset + data.length ≤ attr.initialized_size := by
      by_contra beyond
      cases sparse : attr.flags.sparse with
      | false => exact dense ⟨by omega, sparse⟩
      | true => exact mapped (by simp [sparse]; omega)
    unfold writeRunBytesProgress
    rw [if_pos (file.sound.valid outside)]
    refine (writeRuns_returns file.cluster_bytes_pos attr.runs 0 offset data 0 during
      file.sound.once (by omega)).seq fun result after writing => ?_
    split
    · have writes := writing rfl
      rw [Nat.sub_zero] at writes
      refine .pure fun _ => ⟨⟨attr, ?_, file.sound.readable, rfl, fun position _ => ?_⟩,
        writes.clustersKept v rfl, writes.recordsSame.kept⟩
      · exact (writes.recordsSame.fileStream number).trans file.stream
      · simp only [overwrittenByte, AttrScratch.byteAt, outside, writes.inside]
        split_ifs <;> first | rfl | omega
    · exact (uncertainWrite_rejects _).unless _

/-- A user file: a base record behind the records of the volume itself. -/
def IsFile (state : VolumeState) (number : Nat) : Prop :=
  MFT_FIRST_NORMAL ≤ number ∧ ∃ record, state.record? number = some record ∧
    record.base_record = none

/-- A consistent volume: its records are marked, its files map used clusters, and no two of them
share one. -/
structure Consistent (v : Volume) (state : VolumeState) : Prop where
  geometry : v.geometryValid = true
  table : TableSound v state
  table_base : ∀ record, state.record? MFT_RECORD_MFT = some record → record.base_record = none
  used : ∀ number attr, IsFile state number → fileStream v state number = .found attr →
    ∀ cluster, some cluster ∈ clusterMap attr.runs → state.cluster_used cluster = true
  apart : ∀ number other attr attr', IsFile state number → IsFile state other → number ≠ other →
    fileStream v state number = .found attr → fileStream v state other = .found attr' →
    ∀ cluster, some cluster ∈ clusterMap attr.runs → some cluster ∉ clusterMap attr'.runs

/-- A file that reads as before, down to the bytes of its clusters. -/
structure FileUnchanged (v : Volume) (number : Nat) (before after : VolumeState) : Prop where
  stream : fileStream v after number = fileStream v before number
  clusters : ∀ attr, fileStream v before number = .found attr →
    ∀ address, some (address / v.cluster_bytes) ∈ clusterMap attr.runs →
      after.bytes address = before.bytes address
  read : ∀ offset length, answer v (readFileRange v number offset length) after =
    answer v (readFileRange v number offset length) before

theorem readAttrRange_congr (cluster_bytes_pos : 0 < v.cluster_bytes) {length : Nat}
    (same : ∀ address, some (address / v.cluster_bytes) ∈ clusterMap attr.runs →
      after.bytes address = before.bytes address) :
    answer v (readAttrRange v attr offset length) after =
      answer v (readAttrRange v attr offset length) before := by
  unfold readAttrRange
  split
  · rfl
  split
  · rfl
  simp only
  split
  · rfl
  split
  · rfl
  unfold readRunBytes
  split
  · have read := readRuns_congr cluster_bytes_pos attr.runs 0 offset
      (min (min length (attr.data_size - offset)) (attr.initialized_size - offset)) same
    simp only [answer] at read
    simp only [answer, Program.run_bind, read]
    split <;> rfl
  · rfl

theorem Consistent.unchanged {other : Nat}
    {attr' : AttrScratch} (consistent : Consistent v before) (target : IsFile before number)
    (stream : fileStream v before number = .found attr) (file : IsFile before other)
    (different : other ≠ number) (stream' : fileStream v before other = .found attr')
    (clusters : ClustersKept v (some · ∈ clusterMap attr.runs) before after)
    (records : RecordsKept (OwnRecord before number) before after) :
    FileUnchanged v other before after := by
  have cluster_bytes_pos : 0 < v.cluster_bytes := by
    have geometry := consistent.geometry
    simp only [Volume.geometryValid, Bool.and_eq_true, decide_eq_true_eq] at geometry
    exact Nat.pos_of_ne_zero geometry.1.1
  obtain ⟨normal, base, found, unbased⟩ := file
  have own : ¬OwnRecord before number other := by
    rintro (table | same | ⟨record, sequence, found', based⟩)
    · rw [table] at normal
      exact absurd normal (by decide)
    · exact different same
    · rw [found] at found'
      cases found'
      rw [unbased] at based
      cases based
  have extension : ∀ number' record sequence, before.record? number' = some record →
      record.base_record = some ⟨other, sequence⟩ → ¬OwnRecord before number number' := by
    rintro number' record sequence found' based (rfl | rfl | ⟨record', sequence', found'', based'⟩)
    · rw [consistent.table_base record found'] at based
      cases based
    · obtain ⟨-, target_record, target_found, target_unbased⟩ := target
      rw [target_found] at found'
      cases found'
      rw [target_unbased] at based
      cases based
    · rw [found'] at found''
      cases found''
      rw [based] at based'
      cases based'
      exact different rfl
  have same_stream : fileStream v after other = fileStream v before other := by
    rw [fileStream_kept records own extension stream', stream']
  have file : IsFile before other := ⟨normal, base, found, unbased⟩
  have same_bytes : ∀ address, some (address / v.cluster_bytes) ∈ clusterMap attr'.runs →
      after.bytes address = before.bytes address := fun address member =>
    clusters.bytes address (consistent.used other attr' file stream' _ member) fun owned =>
      consistent.apart number other attr attr' target file (Ne.symm different) stream stream' _ owned
        member
  refine ⟨same_stream, fun attr'' found'' => ?_, fun offset length => ?_⟩
  · rw [stream'] at found''
    cases found''
    exact same_bytes
  · rw [readFileRange_run, readFileRange_run, same_stream, stream']
    exact readAttrRange_congr cluster_bytes_pos same_bytes

/-- A well-formed file of a consistent volume. -/
structure SoundFile (v : Volume) (state : VolumeState) (number : Nat) (attr : AttrScratch) :
    Prop where
  is_file : IsFile state number
  placed : DataPlaced state number
  stream : fileStream v state number = .found attr
  sound : SoundStream v state attr

theorem SoundFile.fileAt {state : VolumeState}
    (file : SoundFile v state number attr) (consistent : Consistent v state) :
    FileAt v state number attr where
  geometry := consistent.geometry
  table := consistent.table
  normal := by
    rintro rfl
    exact absurd file.is_file.1 (by decide)
  placed := file.placed
  stream := file.stream
  sound := file.sound

/-- The calls that write to files. -/
inductive FileCall
  | appendFileAtOffset (parent : Nat) (name : Bytes) (expected_offset : Nat) (data : Bytes)
  | appendFileAtOffsetDeferred (parent : Nat) (name : Bytes) (expected_offset : Nat) (data : Bytes)
  | writeFileAtProgress (number offset : Nat) (data : Bytes)

def FileCall.program (v : Volume) : FileCall → VolumeProgram WriteStatus
  | .appendFileAtOffset parent name expected_offset data =>
    Ntfs.appendFileAtOffset v parent name expected_offset data
  | .appendFileAtOffsetDeferred parent name expected_offset data =>
    Ntfs.appendFileAtOffsetDeferred v parent name expected_offset data
  | .writeFileAtProgress number offset data => do
      return (← Ntfs.writeFileAtProgress v number offset data).status

def FileCall.Targets (v : Volume) (number : Nat) : FileCall → Prop
  | .appendFileAtOffset parent name _ _ | .appendFileAtOffsetDeferred parent name _ _ =>
    ∃ found, v.directory parent name = some found ∧ found.record = number
  | .writeFileAtProgress target _ _ => target = number

/-- What a call is asked to make of the contents of its file. -/
def FileCall.result (former : Bytes) : FileCall → Bytes
  | .appendFileAtOffset _ _ _ data | .appendFileAtOffsetDeferred _ _ _ data => former ++ data
  | .writeFileAtProgress _ offset data =>
    former.take offset ++ data ++ former.drop (offset + data.length)

def FileCall.appended : FileCall → Bytes
  | .appendFileAtOffset _ _ _ data | .appendFileAtOffsetDeferred _ _ _ data => data
  | .writeFileAtProgress _ _ _ => []

/-- The clusters of the stream hold zeros between its initialized size and its end. -/
def ZeroTail (v : Volume) (state : VolumeState) (attr : AttrScratch) : Prop :=
  ∀ position, attr.initialized_size ≤ position → position < attr.data_size →
    streamByte v.cluster_bytes state.bytes (clusterMap attr.runs) position = 0

/-- An append of data to a non-resident stream that is not sparse finds zeros behind its initialized
size. -/
def FileCall.FindsZeroTail (v : Volume) (state : VolumeState) (attr : AttrScratch)
    (call : FileCall) : Prop :=
  call.appended ≠ [] → attr.resident = none → attr.flags.sparse = false → ZeroTail v state attr

def ChangedAsAsked (v : Volume) (number : Nat) (call : FileCall) (before after : VolumeState) :
    Prop :=
  (∃ former, FileHas v before number former ∧ FileHas v after number (call.result former)) ∧
    ∀ other attr, IsFile before other → other ≠ number → fileStream v before other = .found attr →
      FileUnchanged v other before after

theorem Rewritten.fileHas {data_size : Nat} {own : Nat → Prop} {byte : Nat → UInt8} (rewritten : Rewritten v number own data_size byte before after) :
    FileHas v after number ((List.range data_size).map byte) := by
  obtain ⟨attr, stream, readable, rfl, bytes⟩ := rewritten.stream
  have has := fileHas_contents stream readable
  have contents : attr.contents v after.bytes = (List.range attr.data_size).map byte :=
    List.map_congr_left fun position member => bytes position (List.mem_range.mp member)
  rwa [contents] at has

theorem map_appendedByte (former : Nat → UInt8) (data_size : Nat) (data : Bytes) :
    (List.range (data_size + data.length)).map (appendedByte former data_size data) =
      (List.range data_size).map former ++ data := by
  rw [range_map_append]
  congr 1
  · refine List.map_congr_left fun position member => ?_
    rw [List.mem_range] at member
    simp [appendedByte, member]
  · refine List.ext_getElem (by simp) fun index left right => ?_
    simp [appendedByte, right]

theorem map_overwrittenByte (former : Nat → UInt8) {data_size : Nat} {data : Bytes}
    (room : offset + data.length ≤ data_size) :
    (List.range data_size).map (overwrittenByte former offset data) =
      ((List.range data_size).map former).take offset ++ data ++
        ((List.range data_size).map former).drop (offset + data.length) := by
  obtain ⟨rest, rfl⟩ := Nat.exists_eq_add_of_le room
  have split_former : (List.range (offset + data.length + rest)).map former =
      (List.range offset).map former ++ ((List.range data.length).map fun index =>
        former (offset + index)) ++ (List.range rest).map fun index =>
          former (offset + data.length + index) := by
    rw [range_map_append, range_map_append]
  have taken : (((List.range offset).map former ++ ((List.range data.length).map fun index =>
      former (offset + index))) ++ (List.range rest).map fun index =>
        former (offset + data.length + index)).take offset = (List.range offset).map former := by
    rw [List.append_assoc]
    exact List.take_left' (by simp)
  rw [split_former, taken, List.drop_left' (by simp), range_map_append, range_map_append]
  congr 1
  · congr 1
    · refine List.map_congr_left fun position member => ?_
      rw [List.mem_range] at member
      simp only [overwrittenByte]
      rw [if_neg (by omega)]
    · refine List.ext_getElem (by simp) fun index left right => ?_
      simp [overwrittenByte, right]
  · refine List.map_congr_left fun position _ => ?_
    simp only [overwrittenByte]
    rw [if_neg (by omega)]

def FileCall.data : FileCall → Bytes
  | .appendFileAtOffset _ _ _ data | .appendFileAtOffsetDeferred _ _ _ data => data
  | .writeFileAtProgress _ _ data => data

/-- The byte that a call shows at a position of the former contents. -/
def FileCall.shown (v : Volume) (bytes : Nat → UInt8) (attr : AttrScratch) : FileCall → Nat → UInt8
  | .appendFileAtOffset _ _ _ _ | .appendFileAtOffsetDeferred _ _ _ _ => attr.visibleByte v bytes
  | .writeFileAtProgress _ _ _ => attr.byteAt v bytes

/-- A call that reports success has either nothing to write or made its result of what it shows of
the former contents. -/
theorem FileCall.program_returns (file : FileAt v before number attr) (targets : call.Targets v number) :
    Returns v (fun status after => status = .ok →
      (call.data = [] ∧ Quiet before after) ∨
        (call.data ≠ [] ∧ ∃ data_size byte,
          Rewritten v number (some · ∈ clusterMap attr.runs) data_size byte before after ∧
          (List.range data_size).map byte =
            call.result ((List.range attr.data_size).map (call.shown v before.bytes attr))))
      (call.program v) before := by
  have appended : ∀ parent name expected_offset data durable,
      (∃ found, v.directory parent name = some found ∧ found.record = number) →
      Returns v (fun status after => status = .ok →
        (data = [] ∧ Quiet before after) ∨
          (data ≠ [] ∧ ∃ data_size byte,
            Rewritten v number (some · ∈ clusterMap attr.runs) data_size byte before after ∧
            (List.range data_size).map byte =
              (List.range attr.data_size).map (attr.visibleByte v before.bytes) ++ data))
        (appendFileAtOffsetImpl v parent name expected_offset data durable) before := by
    rintro parent name expected_offset data durable ⟨found, listed, number_eq⟩
    have named : ∀ found', v.directory parent name = some found' → found'.record = number := by
      intro found' listed'
      rw [listed] at listed'
      cases listed'
      exact number_eq
    refine (appendFileAtOffsetImpl_returns file named).mono fun status after done ok => ?_
    exact (done ok).imp id fun ⟨nonempty, rewritten⟩ =>
      ⟨nonempty, _, _, rewritten, map_appendedByte _ _ _⟩
  cases call with
  | appendFileAtOffset parent name expected_offset data =>
    exact appended parent name expected_offset data true targets
  | appendFileAtOffsetDeferred parent name expected_offset data =>
    exact appended parent name expected_offset data false targets
  | writeFileAtProgress target offset data =>
    obtain rfl : target = number := targets
    refine (writeFileAtProgress_returns file).seq fun progress after written =>
      Returns.pure fun ok => ?_
    exact (written ok).imp id fun ⟨nonempty, room, rewritten⟩ =>
      ⟨nonempty, _, _, rewritten, map_overwrittenByte _ room⟩

theorem FileCall.result_empty (empty : call.data = []) (former : Bytes) :
    call.result former = former := by
  cases call <;> simp_all [FileCall.data, FileCall.result]

theorem FileCall.appended_empty (empty : call.data = []) : call.appended = [] := by
  cases call <;> simp_all [FileCall.data, FileCall.appended]

theorem FileCall.result_shown {state : VolumeState} (nonempty : call.data ≠ []) :
    call.result ((List.range attr.data_size).map (call.shown v state.bytes attr)) =
      call.result (attr.contents v state.bytes) ↔ call.FindsZeroTail v state attr := by
  have append : ∀ data : Bytes, data ≠ [] →
      ((List.range attr.data_size).map (attr.visibleByte v state.bytes) ++ data =
        attr.contents v state.bytes ++ data ↔
        (data ≠ [] → attr.resident = none → attr.flags.sparse = false → ZeroTail v state attr)) := by
    intro data nonempty
    rw [List.append_cancel_right_eq, AttrScratch.contents, List.map_inj_left]
    constructor
    · intro shown _ outside dense position behind inside
      have byte := shown position (List.mem_range.mpr inside)
      simpa [AttrScratch.visibleByte, AttrScratch.byteAt, outside, dense, Nat.not_lt.mpr behind]
        using byte
    · intro tail position inside
      rw [List.mem_range] at inside
      cases outside : attr.resident with
      | some value => simp [AttrScratch.visibleByte, AttrScratch.byteAt, outside]
      | none =>
        cases sparse : attr.flags.sparse with
        | true => simp [AttrScratch.visibleByte, outside, sparse]
        | false =>
          simp only [AttrScratch.visibleByte, AttrScratch.byteAt, outside, sparse,
            Bool.false_eq_true, if_false]
          split_ifs with initialized
          · rfl
          · exact tail nonempty outside sparse position (Nat.not_lt.mp initialized) inside
  cases call with
  | appendFileAtOffset parent name expected_offset data => exact append data nonempty
  | appendFileAtOffsetDeferred parent name expected_offset data => exact append data nonempty
  | writeFileAtProgress target offset data =>
    simp [FileCall.FindsZeroTail, FileCall.appended, FileCall.shown, AttrScratch.contents]

end

/-- A volume with the file `A` in record 16. -/
def sampleVolume : Volume where
  cluster_bytes := 512
  record_bytes := 1024
  total_sectors := 256
  record_bitmap_bytes := 64
  mft_runs_capacity := 64
  mft_mirror_bootstrap := false
  directory parent name := if parent = 5 ∧ name = [65] then some ⟨16, 1, false⟩ else none

/-- The record of a file whose stream has a single run. -/
def sampleRecord (fields : NonResident) : FileRecord where
  sequence := 1
  link_count := 1
  is_directory := false
  base_record := none
  next_attr_instance := 3
  has_standard_information := true
  has_file_name := true
  other_bytes := 300
  attribute_lists := []
  data := some ⟨2, ⟨false, false, false⟩, 0x48, .non_resident fields⟩

/-- The volume with the table at cluster 64 and the stream of the file at cluster 10, of whose eight
bytes four are initialized. -/
def sampleState (bytes : Nat → UInt8) : VolumeState where
  bytes := bytes
  records number :=
    if number = 0 then .live (sampleRecord ⟨0x40, 0, 127, 65536, 65536, 65536, [18, 128, 0, 64, 0]⟩)
    else if number = 16 then .live (sampleRecord ⟨0x40, 0, 0, 512, 8, 4, [17, 1, 10, 0]⟩)
    else .blank
  cluster_used cluster := decide (cluster ≤ 10 ∨ 64 ≤ cluster ∧ cluster < 192)
  record_used number := decide (number ≤ 16)
  record_count := 64
  dirty := false
  scratch := ⟨0, 16, false⟩

def sampleStream : AttrScratch where
  flags := ⟨false, false, false⟩
  resident := none
  runs := [⟨1, some 10⟩]
  data_size := 8
  initialized_size := 4
  alloc_size := 512

variable (bytes : Nat → UInt8)

theorem sampleState_record {number : Nat} {record : FileRecord}
    (found : (sampleState bytes).record? number = some record) : number = 0 ∨ number = 16 := by
  by_contra other
  rw [not_or] at other
  simp [VolumeState.record?, sampleState, other, RecordSlot.record?] at found

theorem sampleState_table :
    ∃ attr, fileStream sampleVolume (sampleState bytes) MFT_RECORD_MFT = .found attr ∧
      attr.data_size = 65536 :=
  ⟨_, rfl, rfl⟩

theorem sampleState_stream :
    fileStream sampleVolume (sampleState bytes) 16 = .found sampleStream :=
  rfl

theorem sampleState_isFile {bytes : Nat → UInt8} {number : Nat}
    (file : IsFile (sampleState bytes) number) : number = 16 := by
  obtain ⟨normal, record, found, -⟩ := file
  obtain rfl | rfl := sampleState_record bytes found
  · exact absurd normal (by decide)
  · rfl

theorem sampleStream_cluster {cluster : Nat} (mapped : some cluster ∈ clusterMap sampleStream.runs) :
    cluster = 10 := by
  have map : clusterMap sampleStream.runs = [some 10] := by decide
  simpa [map] using mapped

theorem sampleState_consistent :
    Consistent sampleVolume (sampleState bytes) where
  geometry := by decide
  table := by
    refine ⟨fun number record found => ?_, fun attr stream => ?_⟩
    · obtain rfl | rfl := sampleState_record bytes found <;> rfl
    · obtain ⟨attr', stream', size⟩ := sampleState_table bytes
      rw [stream'] at stream
      cases stream
      rw [size]
      exact Nat.le_of_eq rfl
  table_base record found := by
    cases found
    rfl
  used number attr file stream cluster mapped := by
    obtain rfl := sampleState_isFile file
    rw [sampleState_stream] at stream
    cases stream
    rw [sampleStream_cluster mapped]
    rfl
  apart number other attr attr' file file' different := by
    rw [sampleState_isFile file, sampleState_isFile file'] at different
    exact absurd rfl different

theorem sampleState_file :
    SoundFile sampleVolume (sampleState bytes) 16 sampleStream where
  is_file := ⟨by decide, _, rfl, rfl⟩
  placed base list rest found listed := by
    cases found
    cases listed
  stream := sampleState_stream bytes
  sound := {
    plain := rfl
    clear := rfl
    resident := by
      rintro value ⟨⟩
    once := by
      unfold MappedOnce
      decide
    used := fun cluster mapped => by
      rw [sampleStream_cluster mapped]
      rfl
    short := by decide
    valid := fun _ => by decide
    initialized := fun _ => by decide
    room := fun _ => by decide
    allocated := fun _ => by decide }

def sampleAppend : FileCall := .appendFileAtOffset 5 [65] 8 [90]

theorem sampleAppend_targets : sampleAppend.Targets sampleVolume 16 := ⟨⟨16, 1, false⟩, rfl, rfl⟩

/-- The volume after the append, when no call fails. -/
def sampleAppended (bytes : Nat → UInt8) : VolumeState :=
  ((sampleAppend.program sampleVolume).run (VolumeCall.succeed sampleVolume) (sampleState bytes)).2

theorem sampleAppend_execution {bytes : Nat → UInt8}
    (ok : ((sampleAppend.program sampleVolume).run (VolumeCall.succeed sampleVolume)
      (sampleState bytes)).1 = .ok) :
    Execution (device sampleVolume) (sampleAppend.program sampleVolume) (sampleState bytes)
      (some .ok) (sampleAppended bytes) := by
  rw [← ok]
  exact Program.run_execution (fun _ _ => .inl rfl) _ _

end R4OS.Ntfs
