import R4OS.Ntfs.RunlistCommit

/-!
# Appending to files

What a file reads as, position by position, and what an append that reports success makes of it.
-/

namespace R4OS.Ntfs

open Crash Text

section

variable {v : Volume}

variable {attr : AttrScratch} {state before after during : VolumeState}
  {number data_size alloc_size parent : Nat} {data name value : Bytes} {runs : List Run}
  {own : Nat → Prop} {byte : Nat → UInt8} {durable : Bool}

/-- The byte of a collected stream at a position.  Behind the initialized size it is zero. -/
def AttrScratch.byteAt (v : Volume) (bytes : Nat → UInt8) (attr : AttrScratch)
    (position : Nat) : UInt8 :=
  match attr.resident with
  | some value => value.getD position 0
  | none =>
    if position < attr.initialized_size then
      streamByte v.cluster_bytes bytes (clusterMap attr.runs) position
    else 0

/-- The contents of a collected stream. -/
def AttrScratch.contents (v : Volume) (bytes : Nat → UInt8) (attr : AttrScratch) : Bytes :=
  (List.range attr.data_size).map (attr.byteAt v bytes)

/-- A collected stream that can be read to its end. -/
structure Readable (v : Volume) (attr : AttrScratch) : Prop where
  plain : attr.flags.compressed = false
  clear : attr.flags.encrypted = false
  resident : ∀ value, attr.resident = some value → attr.data_size = value.length
  valid : attr.resident = none → runlistPhysicalRangeValid v attr.runs = true
  small : attr.resident = none → (clusterMap attr.runs).length * v.cluster_bytes < 2 ^ 64
  initialized : attr.resident = none → attr.initialized_size ≤ attr.data_size
  room : attr.resident = none → attr.data_size ≤ (clusterMap attr.runs).length * v.cluster_bytes

theorem range_map_append {Item : Type} (f : Nat → Item) (first second : Nat) :
    (List.range (first + second)).map f =
      (List.range first).map f ++ (List.range second).map fun index => f (first + index) := by
  simp [List.range_add]

theorem readRunBytes_run {length : Nat} {state : VolumeState}
    (valid : runlistPhysicalRangeValid v runs = true)
    (small : (clusterMap runs).length * v.cluster_bytes < 2 ^ 64)
    (room : length ≤ (clusterMap runs).length * v.cluster_bytes) :
    (readRunBytes v runs 0 length).run (VolumeCall.succeed v) state =
      (some (streamSlice v.cluster_bytes state.bytes (clusterMap runs) 0 length), state) := by
  have parts := valid
  rw [runlistPhysicalRangeValid, Bool.and_eq_true] at parts
  unfold readRunBytes
  rw [if_pos valid]
  have read := readRuns_run (v := v) parts.1 runs 0 0 length state
    (mappedRunPhysicalRangeValid_of_clusters parts.2) (by omega) (by omega) (by omega)
  rwa [Nat.sub_zero] at read

/-- Reading from the start up to the end or behind it gives the contents. -/
theorem readAttrRange_contents {length : Nat}
    (readable : Readable v attr) (whole : attr.data_size ≤ length) :
    answer v (readAttrRange v attr 0 length) state = some (attr.contents v state.bytes) := by
  unfold readAttrRange
  rw [if_neg (by simp [readable.clear])]
  split
  · rename_i empty
    simp [answer, AttrScratch.contents, Nat.le_zero.mp empty]
  rename_i nonempty
  have want : min length (attr.data_size - 0) = attr.data_size := by omega
  simp only [want]
  cases inside : attr.resident with
  | some value =>
    have size := readable.resident value inside
    simp only [answer, Program.run_pure, List.drop_zero, size, List.take_length]
    refine congrArg some (List.ext_getElem (by simp [AttrScratch.contents, size]) ?_)
    intro position left right
    simp [AttrScratch.contents, AttrScratch.byteAt, inside, left]
  | none =>
    have initialized := readable.initialized inside
    have room := readable.room inside
    have read := @readRunBytes_run v _ _ state (readable.valid inside) (readable.small inside)
      (show attr.initialized_size ≤ _ by omega)
    have size : min attr.data_size (attr.initialized_size - 0) = attr.initialized_size := by omega
    simp only [readable.plain, Bool.false_eq_true, if_false, answer, Program.run_bind, size, read,
      Program.run_pure]
    refine congrArg some ?_
    have total : attr.data_size =
        attr.initialized_size + (attr.data_size - attr.initialized_size) := by omega
    rw [AttrScratch.contents, total, range_map_append, Nat.add_sub_cancel_left]
    congr 1
    · refine List.map_congr_left fun position member => ?_
      rw [List.mem_range] at member
      simp [AttrScratch.byteAt, inside, member]
    · refine (List.eq_replicate_iff.mpr ⟨by simp, fun byte member => ?_⟩).symm
      obtain ⟨position, -, rfl⟩ := List.mem_map.mp member
      simp [AttrScratch.byteAt, inside]

/-- Reading a file to its end or behind it gives exactly these bytes. -/
def FileHas (v : Volume) (state : VolumeState) (number : Nat) (data : Bytes) : Prop :=
  ∀ length, data.length ≤ length → answer v (readFileRange v number 0 length) state = some data

theorem readFileRange_run (number offset length : Nat) (state : VolumeState) :
    answer v (readFileRange v number offset length) state =
      match fileStream v state number with
      | .found attr => answer v (readAttrRange v attr offset length) state
      | .not_found | .io => none := by
  simp only [answer, readFileRange, Program.run_bind, collectAttributeStatus_run]
  cases fileStream v state number <;> rfl

theorem fileHas_contents
    (stream : fileStream v state number = .found attr) (readable : Readable v attr) :
    FileHas v state number (attr.contents v state.bytes) := by
  intro length whole
  rw [readFileRange_run, stream]
  exact readAttrRange_contents readable (by simpa [AttrScratch.contents] using whole)

theorem FileHas.unique {data' : Bytes}
    (has : FileHas v state number data) (has' : FileHas v state number data') : data = data' :=
  Option.some.inj ((has _ (Nat.le_max_left _ _)).symm.trans (has' _ (Nat.le_max_right _ _)))

/-- The stream of a file that is not compressed or encrypted: a non-resident one maps used clusters,
none of them twice, and its allocation is what its runs cover. -/
structure SoundStream (v : Volume) (state : VolumeState) (attr : AttrScratch) : Prop where
  plain : attr.flags.compressed = false
  clear : attr.flags.encrypted = false
  resident : ∀ value, attr.resident = some value → attr.data_size = value.length ∧ attr.runs = []
  once : MappedOnce (clusterMap attr.runs)
  used : ∀ cluster, some cluster ∈ clusterMap attr.runs → state.cluster_used cluster = true
  short : attr.runs.length ≤ MAX_ATTR_RUNS
  valid : attr.resident = none → runlistPhysicalRangeValid v attr.runs = true
  initialized : attr.resident = none → attr.initialized_size ≤ attr.data_size
  room : attr.resident = none → attr.data_size ≤ attr.alloc_size
  allocated : attr.resident = none →
    attr.alloc_size = (clusterMap attr.runs).length * v.cluster_bytes ∧ attr.alloc_size < 2 ^ 64

theorem SoundStream.readable (sound : SoundStream v state attr) : Readable v attr where
  plain := sound.plain
  clear := sound.clear
  resident value inside := (sound.resident value inside).1
  valid := sound.valid
  small outside := by
    rw [← (sound.allocated outside).1]
    exact (sound.allocated outside).2
  initialized := sound.initialized
  room outside := by
    rw [← (sound.allocated outside).1]
    exact sound.room outside

structure FileAt (v : Volume) (state : VolumeState) (number : Nat) (attr : AttrScratch) : Prop where
  geometry : v.geometryValid = true
  table : TableSound v state
  normal : number ≠ MFT_RECORD_MFT
  placed : DataPlaced state number
  stream : fileStream v state number = .found attr
  sound : SoundStream v state attr

theorem FileAt.cluster_bytes_pos (file : FileAt v state number attr) : 0 < v.cluster_bytes := by
  have geometry := file.geometry
  simp only [Volume.geometryValid, Bool.and_eq_true, decide_eq_true_eq] at geometry
  exact Nat.pos_of_ne_zero geometry.1.1

theorem listedStream_congr
    (same : ∀ number, after.record? number = before.record? number) (number sequence : Nat)
    (entries : List AttributeListEntry) (collected : Option (AttrScratch × Nat)) :
    listedStream v after number sequence entries collected =
      listedStream v before number sequence entries collected := by
  induction entries generalizing collected with
  | nil => rfl
  | cons entry rest induction => simp [listedStream, same, induction]

theorem RecordsSame.fileStream (same : RecordsSame before after)
    (number : Nat) : fileStream v after number = fileStream v before number := by
  simp [Ntfs.fileStream, same.record?, listedStream_congr same.record?]

theorem TableSound.same (table : TableSound v before)
    (same : RecordsSame before after) : TableSound v after where
  marked number record found := by
    rw [same.record?] at found
    rw [same.record_used]
    exact table.marked number record found
  sized attr stream := by
    rw [same.fileStream] at stream
    rw [same.record_count]
    exact table.sized attr stream

theorem DataPlaced.same (placed : DataPlaced before number) (same : RecordsSame before after) :
    DataPlaced after number := by
  intro base list rest found lists
  rw [same.record?] at found
  exact placed base list rest found lists

theorem OwnRecord.same (same : RecordsSame before after)
    (changed : Nat) : OwnRecord after number changed ↔ OwnRecord before number changed := by
  simp [OwnRecord, same.record?]

theorem FileAt.quiet (file : FileAt v before number attr) (quiet : Quiet before after) :
    FileAt v after number attr where
  geometry := file.geometry
  table := file.table.same quiet.records
  normal := file.normal
  placed := file.placed.same quiet.records
  stream := (quiet.records.fileStream number).trans file.stream
  sound := { file.sound with
    used := fun cluster member => by
      rw [quiet.used]
      exact file.sound.used cluster member }

theorem writeRunBytes_returns (cluster_bytes_pos : 0 < v.cluster_bytes)
    {offset : Nat} (once : MappedOnce (clusterMap runs)) :
    Returns v (fun succeeded after => succeeded = true →
      runlistPhysicalRangeValid v runs = true ∧
        Written v.cluster_bytes (clusterMap runs) offset data before after)
      (writeRunBytes v runs offset data) before := by
  unfold writeRunBytes writeRunBytesProgress
  split
  · rename_i valid
    refine (writeRuns_returns cluster_bytes_pos runs 0 offset data 0 before once (by omega)).seq ?_
    intro result after written
    refine .pure fun succeeded => ⟨valid, written ?_⟩
    cases result with
    | error completed => cases succeeded
    | ok _ => rfl
  · refine .bind (.pure (.pure fun succeeded => ?_))
    cases succeeded

theorem durableFlush_returns (durable : Bool) (before : VolumeState) :
    Returns v (fun _ after => after = before) (durableFlush durable) before := by
  unfold durableFlush
  split
  · exact flush_returns before
  · exact .pure rfl

theorem setDirty_returns (dirty : Bool) (before : VolumeState) :
    Returns v (fun _ after => Quiet before after) (setDirty v dirty) before := by
  unfold setDirty
  refine (readScratch_returns _).seq ?_
  rintro scratch after ⟨rfl, -⟩
  split
  · exact .pure .refl
  refine .seq (show Returns v (fun _ during => during = after) _ _ from .perform rfl fun _ _ failed =>
    failed.2) ?_
  rintro was_dirty during rfl
  split
  · exact .pure .refl
  split
  · exact .pure .refl
  refine .require (.mono (show Returns v (fun _ after => Quiet during after) _ _ from .perform ⟨⟨rfl, rfl, rfl⟩, rfl, rfl⟩ ?_) fun succeeded after quiet => ?_)
  · rintro answer after ⟨-, dirty, rfl⟩
    exact ⟨⟨rfl, rfl, rfl⟩, rfl, rfl⟩
  · refine ⟨fun _ => (flush_returns _).mono ?_, fun _ => .pure quiet⟩
    rintro _ _ rfl
    exact quiet

theorem updateFileNameDupOnBase_returns (number : Nat) (before : VolumeState) :
    Returns v (fun succeeded after => succeeded = true → Quiet before after)
      (updateFileNameDupOnBase v number) before := by
  unfold updateFileNameDupOnBase
  refine (loadRecord_returns _ _).seq ?_
  rintro base after ⟨rfl, loaded⟩
  cases base with
  | none => exact .pure (by simp)
  | some base =>
    refine (storeRecord_returns _ _ _).mono fun succeeded final stored ok => ?_
    have found := loaded base rfl
    have slot : after.records number = .live base := by
      unfold VolumeState.record? at found
      split at found
      · cases slot : after.records number with
        | blank | free sequence => rw [slot] at found; cases found
        | live record =>
          rw [slot] at found
          exact congrArg _ (Option.some.inj found)
      · cases found
    rw [stored ok, ← slot, Function.update_eq_self]
    exact .refl

theorem finishAppend_returns (parent : Nat) (name : Bytes) (durable : Bool) (before : VolumeState) :
    Returns v (fun status after => status = .ok → Quiet before after)
      (finishAppend v parent name durable) before := by
  unfold finishAppend
  refine .require (.mono (show Returns v (fun _ after => after = before) _ _ from .perform rfl fun _ _ failed => failed.2) ?_)
  rintro succeeded after rfl
  refine ⟨fun _ => ?_, fun _ => .pure (by simp)⟩
  refine (durableFlush_returns durable _).guards (fun _ => .pure (by simp)) ?_
  rintro during rfl
  refine .require (.mono (?_ : Returns v (fun _ after => Quiet during after) _ _)
    fun succeeded after quiet =>
      ⟨fun _ => .pure fun _ => quiet, fun _ => .pure (by simp)⟩)
  split
  · exact setDirty_returns false _
  · exact .pure .refl

theorem finishCommitted_returns (parent : Nat) (name : Bytes) (number : Nat) (durable : Bool)
    (before : VolumeState) :
    Returns v (fun status after => status = .ok → Quiet before after)
      (finishCommitted v parent name number durable) before := by
  unfold finishCommitted
  refine (durableFlush_returns durable _).guards (fun _ => .pure (by simp)) ?_
  rintro after rfl
  refine (updateFileNameDupOnBase_returns number _).guards
    (fun _ => .pure (by simp)) fun during updated => ?_
  refine (durableFlush_returns durable _).guards (fun _ => .pure (by simp)) ?_
  rintro flushed rfl
  exact (finishAppend_returns parent name durable _).mono fun _ _ finished ok' =>
    (updated rfl).trans (finished ok')

/-- A file whose stream became another one; nothing else has changed. -/
structure Rewritten (v : Volume) (number : Nat) (own : Nat → Prop) (data_size : Nat)
    (byte : Nat → UInt8) (before after : VolumeState) : Prop where
  stream : ∃ attr, fileStream v after number = .found attr ∧ Readable v attr ∧
    attr.data_size = data_size ∧ ∀ position < data_size, attr.byteAt v after.bytes position =
      byte position
  clusters : ClustersKept v own before after
  records : RecordsKept (OwnRecord before number) before after

theorem Rewritten.quiet
    (rewritten : Rewritten v number own data_size byte before during) (quiet : Quiet during after) :
    Rewritten v number own data_size byte before after where
  stream := by
    obtain ⟨attr, stream, readable, size, bytes⟩ := rewritten.stream
    exact ⟨attr, (quiet.records.fileStream number).trans stream, readable, size, quiet.bytes ▸ bytes⟩
  clusters := rewritten.clusters.trans (quiet.clustersKept own) fun _ owned _ => owned
  records := rewritten.records.trans quiet.records.kept fun _ member => .inl member

theorem Committed.rewritten {init_size : Nat} (cluster_bytes_pos : 0 < v.cluster_bytes)
    (same : RecordsSame before during) (kept : ClustersKept v own before during)
    (committed : Committed v number runs data_size init_size alloc_size during after)
    (rewritable : Rewritable v runs data_size init_size)
    (small : (clusterMap runs).length * v.cluster_bytes < 2 ^ 64)
    (room : data_size ≤ (clusterMap runs).length * v.cluster_bytes)
    (used : ∀ cluster, some cluster ∈ clusterMap runs → during.cluster_used cluster = true) :
    Rewritten v number own data_size (fun position =>
      if position < init_size then
        streamByte v.cluster_bytes during.bytes (clusterMap runs) position
      else 0) before after where
  stream := by
    obtain ⟨flags, plain, clear, stream⟩ := committed.stream
    refine ⟨_, stream, ⟨plain, clear, by simp [AttrScratch.nonResident], fun _ => rewritable.valid,
      fun _ => small, fun _ => rewritable.sizes, fun _ => room⟩, rfl, fun position _ => ?_⟩
    have bytes := @streamByte_congr _ after.bytes during.bytes (clusterMap runs) cluster_bytes_pos
      (fun address member => committed.clusters.bytes address (used _ member) id) position
    simp [AttrScratch.byteAt, AttrScratch.nonResident, bytes]
  clusters := kept.trans committed.clusters fun _ owned _ => owned.elim
  records := same.kept.trans committed.records fun changed member =>
    .inl ((OwnRecord.same same changed).mp member)

theorem Rewritten.congr {byte' : Nat → UInt8}
    (rewritten : Rewritten v number own data_size byte before after)
    (same : ∀ position < data_size, byte position = byte' position) :
    Rewritten v number own data_size byte' before after where
  stream := by
    obtain ⟨attr, stream, readable, size, bytes⟩ := rewritten.stream
    exact ⟨attr, stream, readable, size, fun position inside =>
      (bytes position inside).trans (same position inside)⟩
  clusters := rewritten.clusters
  records := rewritten.records

/-- A run list that is about to be committed for a file: it maps used clusters once, and those that
were used before belong to the file. -/
structure Prepared (v : Volume) (number : Nat) (attr : AttrScratch) (runs : List Run)
    (alloc_size : Nat) (before during : VolumeState) : Prop where
  file : FileAt v before number attr
  outside : attr.resident = none
  same : RecordsSame before during
  kept : ClustersKept v (some · ∈ clusterMap attr.runs) before during
  once : MappedOnce (clusterMap runs)
  used : ∀ cluster, some cluster ∈ clusterMap runs → during.cluster_used cluster = true
  owned : ∀ cluster, some cluster ∈ clusterMap runs → before.cluster_used cluster = true →
    some cluster ∈ clusterMap attr.runs
  short : runs.length ≤ MAX_ATTR_RUNS
  sized : alloc_size = (clusterMap runs).length * v.cluster_bytes ∧ alloc_size < 2 ^ 64

theorem FileAt.prepared (file : FileAt v state number attr) (outside : attr.resident = none) :
    Prepared v number attr attr.runs attr.alloc_size state state where
  file := file
  outside := outside
  same := .refl
  kept := .refl
  once := file.sound.once
  used := file.sound.used
  owned _ member _ := member
  short := file.sound.short
  sized := file.sound.allocated outside

section

variable (prepared : Prepared v number attr runs alloc_size before during)

include prepared

theorem Prepared.step (same : RecordsSame during after)
    (kept : ClustersKept v (some · ∈ clusterMap runs) during after) :
    Prepared v number attr runs alloc_size before after where
  file := prepared.file
  outside := prepared.outside
  same := prepared.same.trans same
  kept := prepared.kept.trans kept prepared.owned
  once := prepared.once
  used cluster member := kept.used cluster (prepared.used cluster member)
  owned := prepared.owned
  short := prepared.short
  sized := prepared.sized

theorem Prepared.extend {new_runs all_runs : List Run} {count : Nat}
    (allocated : Allocated count new_runs during after)
    (appended : appendRuns MAX_ATTR_RUNS runs new_runs = .ok all_runs)
    (small : alloc_size + count * v.cluster_bytes < 2 ^ 64) :
    Prepared v number attr all_runs (alloc_size + count * v.cluster_bytes) before after := by
  obtain ⟨map_eq, short⟩ := appendRuns_eq_ok appended
  have fresh : ∀ cluster, some cluster ∈ clusterMap new_runs →
      during.cluster_used cluster = false := allocated.planned.free
  refine ⟨prepared.file, prepared.outside, prepared.same.trans allocated.recordsSame,
    prepared.kept.trans (allocated.clustersKept _) fun _ owned _ => owned, ?_, ?_, ?_,
    short prepared.short, ?_, small⟩
  · rw [map_eq]
    refine mappedOnce_append.2 ⟨prepared.once, allocated.planned.once, fun cluster old new => ?_⟩
    have used := prepared.used cluster old
    rw [fresh cluster new] at used
    cases used
  · rw [map_eq]
    intro cluster member
    rcases List.mem_append.mp member with old | new
    · exact (allocated.clustersKept (v := v) fun _ => False).used cluster (prepared.used cluster old)
    · exact allocated.used new
  · rw [map_eq]
    intro cluster member used
    rcases List.mem_append.mp member with old | new
    · exact prepared.owned cluster old used
    · have used := prepared.kept.used cluster used
      rw [fresh cluster new] at used
      cases used
  · rw [map_eq, List.length_append, allocated.length, Nat.add_mul, prepared.sized.1]

theorem Prepared.commit {init_size : Nat}
    (valid : runlistPhysicalRangeValid v runs = true) (sizes : init_size ≤ data_size)
    (room : data_size ≤ alloc_size) (nonempty : 0 < data_size) :
    Returns v (fun status after => status = .ok →
      Rewritten v number (some · ∈ clusterMap attr.runs) data_size (fun position =>
        if position < init_size then
          streamByte v.cluster_bytes during.bytes (clusterMap runs) position
        else 0) before after)
      (commitDataRunlist v number runs data_size init_size alloc_size) during := by
  have cluster_bytes_pos := prepared.file.cluster_bytes_pos
  have stream := (prepared.same.fileStream number).trans prepared.file.stream
  have sized := prepared.sized
  have rewritable : Rewritable v runs data_size init_size := by
    refine ⟨sizes, valid, prepared.short, fun empty => ?_⟩
    rw [empty] at sized
    omega
  refine (commitDataRunlist_returns cluster_bytes_pos (prepared.file.table.same prepared.same)
    prepared.file.normal (prepared.file.placed.same prepared.same) stream prepared.outside
    prepared.file.sound.plain prepared.file.sound.clear rewritable).mono
    fun status after committed ok => ?_
  exact (committed ok).rewritten cluster_bytes_pos prepared.same prepared.kept rewritable
    (sized.1 ▸ sized.2) (sized.1 ▸ room) prepared.used

end

/-- What an append makes of a file: its former bytes up to the end, then the data. -/
def appendedByte (former : Nat → UInt8) (data_size : Nat) (data : Bytes) (position : Nat) : UInt8 :=
  if position < data_size then former position else data.getD (position - data_size) 0

/-- A file that shows its former stream and the data behind it. -/
abbrev Appended (v : Volume) (number : Nat) (attr : AttrScratch) (runs : List Run) (data : Bytes)
    (before during after : VolumeState) : Prop :=
  Rewritten v number (some · ∈ clusterMap attr.runs) (attr.data_size + data.length)
    (appendedByte (streamByte v.cluster_bytes during.bytes (clusterMap runs)) attr.data_size data)
    before after

theorem Prepared.append {attr : AttrScratch} {runs : List Run} {alloc_size : Nat} {data : Bytes}
    {before during written : VolumeState}
    (prepared : Prepared v number attr runs alloc_size before during)
    (valid : runlistPhysicalRangeValid v runs = true) (nonempty : data ≠ [])
    (writes : Written v.cluster_bytes (clusterMap runs) attr.data_size data during written) :
    Returns v (fun status after => status = .ok →
        Appended v number attr runs data before during after)
      (commitDataRunlist v number runs (attr.data_size + data.length)
        (attr.data_size + data.length) alloc_size) written := by
  have room := writes.room nonempty
  rw [← prepared.sized.1] at room
  have length := List.length_pos_of_ne_nil nonempty
  have step := prepared.step writes.recordsSame (writes.clustersKept v rfl)
  refine (step.commit valid .refl room (by omega)).mono fun status after committed ok => ?_
  refine (committed ok).congr fun position inside => ?_
  rw [if_pos inside, writes.inside, appendedByte]
  split_ifs <;> first | rfl | omega

theorem appendSlack_returns
    (prepared : Prepared v number attr runs attr.alloc_size before during) (nonempty : data ≠ []) :
    Returns v (fun status after => status = .ok →
        Appended v number attr runs data before during after)
      (appendSlack v parent name number { attr with runs := runs } data
        (attr.data_size + data.length) durable) during := by
  unfold appendSlack
  refine (writeRunBytes_returns prepared.file.cluster_bytes_pos prepared.once).guards
    (fun _ => .pure (by simp)) fun written writing => ?_
  obtain ⟨valid, writes⟩ := writing rfl
  refine (durableFlush_returns _ _).guards (fun _ => .pure (by simp)) ?_
  rintro flushed rfl
  refine (prepared.append valid nonempty writes).seq fun status committed committing => ?_
  split
  · exact (finishCommitted_returns _ _ _ _ _).mono fun _ _ finished ok =>
      (committing rfl).quiet (finished ok)
  · rename_i failed
    exact (abortWriteAfterCommitFailure_rejects failed).unless _

theorem appendExtending_returns
    (prepared : Prepared v number attr runs attr.alloc_size before during) (nonempty : data ≠ []) :
    Returns v (fun status after => status = .ok →
        Appended v number attr runs data before during after)
      (appendExtending v parent name number { attr with runs := runs } data
        (attr.data_size + data.length) durable) during := by
  unfold appendExtending
  split
  · exact (abortWrite_rejects (by simp)).unless _
  split
  · exact (abortWrite_rejects (by simp)).unless _
  simp only
  split
  · exact (abortWrite_rejects (by simp)).unless _
  split
  · exact (abortWrite_rejects (by simp)).unless _
  refine (allocateClusters_returns _ _ _).seq ?_
  intro result marked producing
  cases result with
  | failed status => exact (abortWrite_rejects producing).unless _
  | produced new_runs =>
    have allocated := producing.1
    refine (durableFlush_returns _ _).guards (abortWriteFreeing_rejects (by simp)).unless ?_
    rintro flushed rfl
    split
    · rename_i status appending
      refine Rejects.unless (abortWriteFreeing_rejects fun ok => ?_) _
      rw [ok] at appending
      exact appendRuns_ne_error_ok appending
    · exact (abortWriteFreeing_rejects (by simp)).unless _
    · rename_i all_runs new_alloc appended new_alloc_eq
      obtain ⟨added, added_eq, new_alloc_eq⟩ := Option.bind_eq_some_iff.mp new_alloc_eq
      obtain ⟨-, rfl⟩ := checkedMulU64_eq_some.mp added_eq
      obtain ⟨small, rfl⟩ := checkedAddU64_eq_some.mp new_alloc_eq
      have extended := prepared.extend allocated appended small
      split
      · rename_i valid
        refine (writeRunBytes_returns prepared.file.cluster_bytes_pos extended.once).guards
          (abortWriteFreeing_rejects (by simp)).unless fun written writing => ?_
        obtain ⟨-, writes⟩ := writing rfl
        refine (durableFlush_returns _ _).guards (abortWriteFreeing_rejects (by simp)).unless ?_
        rintro flushed' rfl
        refine (extended.append valid nonempty writes).seq fun status committed committing => ?_
        split
        · refine (finishCommitted_returns _ _ _ _ _).mono fun _ _ finished ok => ?_
          refine ((committing rfl).quiet (finished ok)).congr fun position inside => ?_
          unfold appendedByte
          split
          · rename_i former
            have room := prepared.file.sound.room prepared.outside
            rw [prepared.sized.1] at room
            rw [(appendRuns_eq_ok appended).1, allocated.bytes,
              streamByte_append_left (by omega)]
          · rfl
        · exact (abortWriteFreeing_rejects (by simp)).unless _
        · exact (abortWriteFreeing_rejects (by simp)).unless _
        · rename_i failed _ _
          exact .pure fun ok => absurd ok failed
      · exact (abortWriteFreeing_rejects (by simp)).unless _

theorem Prepared.fill {runs' : List Run}
    (prepared : Prepared v number attr runs alloc_size before during)
    (filled : Filled v (clusterMap runs) (clusterMap runs') during after)
    (short : runs'.length ≤ MAX_ATTR_RUNS) :
    Prepared v number attr runs' alloc_size before after where
  file := prepared.file
  outside := prepared.outside
  same := prepared.same.trans filled.records
  kept := prepared.kept.trans filled.kept fun _ owned _ => owned.elim
  once := filled.once
  used cluster member := by
    rcases filled.mem member with old | ⟨-, used⟩
    · exact filled.kept.used cluster (prepared.used cluster old)
    · exact used
  owned cluster member used := by
    rcases filled.mem member with old | ⟨free, -⟩
    · exact prepared.owned cluster old used
    · rw [prepared.kept.used cluster used] at free
      cases free
  short := short
  sized := by
    rw [← filled.clusters.length_eq]
    exact prepared.sized

/-- The byte that an append leaves at a position of the former contents.  A stream that is not
sparse shows what its clusters hold behind the initialized size. -/
def AttrScratch.visibleByte (v : Volume) (bytes : Nat → UInt8) (attr : AttrScratch)
    (position : Nat) : UInt8 :=
  match attr.resident with
  | some value => value.getD position 0
  | none =>
    if attr.flags.sparse then attr.byteAt v bytes position
    else streamByte v.cluster_bytes bytes (clusterMap attr.runs) position

/-- What an append that reports success makes of a file. -/
abbrev AppendRewritten (v : Volume) (number : Nat) (attr : AttrScratch) (data : Bytes)
    (before after : VolumeState) : Prop :=
  Rewritten v number (some · ∈ clusterMap attr.runs) (attr.data_size + data.length)
    (appendedByte (attr.visibleByte v before.bytes) attr.data_size data) before after

theorem appendPrepared_returns
    (prepared : Prepared v number attr runs attr.alloc_size before during) (nonempty : data ≠ [])
    (former : ∀ position < attr.data_size,
      streamByte v.cluster_bytes during.bytes (clusterMap runs) position =
        attr.visibleByte v before.bytes position) :
    Returns v (fun status after => status = .ok → AppendRewritten v number attr data before after)
      (if attr.data_size + data.length ≤ attr.alloc_size then
        appendSlack v parent name number { attr with runs := runs } data
          (attr.data_size + data.length) durable
      else
        appendExtending v parent name number { attr with runs := runs } data
          (attr.data_size + data.length) durable) during := by
  have shown : ∀ (status : WriteStatus) (after : VolumeState),
      (status = .ok → Appended v number attr runs data before during after) →
      status = .ok → AppendRewritten v number attr data before after := by
    intro status after rewritten ok
    refine (rewritten ok).congr fun position _ => ?_
    unfold appendedByte
    split
    · rename_i inside
      exact former position inside
    · rfl
  split
  · exact (appendSlack_returns prepared nonempty).mono shown
  · exact (appendExtending_returns prepared nonempty).mono shown

theorem appendNonResident_returns (file : FileAt v before number attr)
    (outside : attr.resident = none) (nonempty : data ≠ []) :
    Returns v (fun status after => status = .ok → AppendRewritten v number attr data before after)
      (appendNonResident v parent name number attr data (attr.data_size + data.length) durable)
      before := by
  have prepared := file.prepared outside
  unfold appendNonResident
  simp only
  split
  · rename_i sparse
    refine (zeroMappedRange_returns file.cluster_bytes_pos file.sound.once).guards
      (fun _ => .pure (by simp)) fun zeroed zeroing => ?_
    have zeroing := zeroing rfl
    have step := prepared.step zeroing.recordsSame zeroing.clustersKept
    have former : ∀ position < attr.data_size,
        streamByte v.cluster_bytes zeroed.bytes (clusterMap attr.runs) position =
          attr.visibleByte v before.bytes position := by
      intro position inside
      rw [zeroing.inside]
      simp only [AttrScratch.visibleByte, AttrScratch.byteAt, outside, sparse, if_true]
      split_ifs <;> first | rfl | omega
    split
    · refine (fillHolesInRuns_returns file.cluster_bytes_pos step.once step.used step.short).seq ?_
      rintro result filled ⟨failing, filling⟩
      cases result with
      | failed status =>
        exact (abortWrite_rejects (failing status rfl)).unless _
      | runs runs =>
        obtain ⟨short, filled_map⟩ := filling runs rfl
        refine appendPrepared_returns (step.fill filled_map short) nonempty
          fun position inside => ?_
        rw [filled_map.streamByte file.cluster_bytes_pos step.used, former position inside]
    · exact appendPrepared_returns step nonempty former
  · rename_i dense
    refine appendPrepared_returns prepared nonempty fun position _ => ?_
    simp [AttrScratch.visibleByte, outside, dense]

theorem captureAttribute_some_resident {attr : DataAttribute} {collected captured : AttrScratch × Nat}
    (captured_eq : captureAttribute v attr (some collected) = some captured) :
    captured.1.resident = none := by
  obtain ⟨⟨⟩, -⟩ | ⟨outside, -⟩ := captureAttribute_cases captured_eq
  exact outside

theorem listedStream_some {sequence : Nat}
    {entries : List AttributeListEntry} {collected : AttrScratch × Nat}
    {result : Option (AttrScratch × Nat)} (outside : collected.1.resident = none)
    (listed : listedStream v state number sequence entries (some collected) = some result) :
    ∃ final, result = some final ∧ final.1.resident = none := by
  induction entries generalizing collected with
  | nil =>
    cases listed
    exact ⟨collected, rfl, outside⟩
  | cons entry rest induction =>
    obtain ⟨part, -, listed⟩ := Option.bind_eq_some_iff.mp listed
    obtain ⟨captured, captured_eq, listed⟩ := Option.bind_eq_some_iff.mp listed
    obtain ⟨attr, -, captured_eq⟩ := Option.bind_eq_some_iff.mp captured_eq
    exact induction (captureAttribute_some_resident captured_eq) listed

theorem FileAt.resident_direct {base : FileRecord} {data : DataAttribute} (file : FileAt v state number attr)
    (inside : attr.resident = some value) (found : state.record? number = some base)
    (data_eq : base.data = some data) :
    base.attribute_lists = [] ∧ ∃ next_vcn,
      captureAttribute v data none = some (attr, next_vcn) := by
  have stream := file.stream
  cases lists : base.attribute_lists with
  | nil =>
    rw [fileStream_direct found lists, collectDirect, data_eq] at stream
    simp only at stream
    split at stream
    · cases stream
    · rename_i collected next_vcn captured
      cases stream
      exact ⟨rfl, next_vcn, captured⟩
  | cons list rest =>
    exfalso
    have placed := file.placed base list rest found lists
    obtain ⟨length, entries⟩ := list
    simp only [fileStream, found, lists] at stream
    cases entries with
    | none => cases stream
    | some entries =>
      obtain - | ⟨first, - | ⟨second, more⟩⟩ := entries
      · exact placed.1 rfl
      · rw [(placed.2 first rfl).2] at data_eq
        cases data_eq
      · cases listed : listedStream v state number base.sequence (first :: second :: more)
              none with
          | none => simp [listed] at stream
          | some result =>
            simp only [listed] at stream
            obtain ⟨part, -, listed⟩ := Option.bind_eq_some_iff.mp listed
            obtain ⟨captured, -, listed⟩ := Option.bind_eq_some_iff.mp listed
            obtain ⟨part', -, listed⟩ := Option.bind_eq_some_iff.mp listed
            obtain ⟨captured', captured_eq, listed⟩ := Option.bind_eq_some_iff.mp listed
            obtain ⟨attr', -, captured_eq⟩ := Option.bind_eq_some_iff.mp captured_eq
            obtain ⟨⟨final, next_vcn⟩, rfl, outside⟩ :=
              listedStream_some (captureAttribute_some_resident captured_eq) listed
            cases stream
            rw [inside] at outside
            cases outside

theorem captureAttribute_resident {attr : DataAttribute} {stream : AttrScratch} {next_vcn : Nat}
    (captured : captureAttribute v attr none = some (stream, next_vcn))
    (inside : stream.resident = some value) :
    ∃ value_offset, attr.body = .resident value_offset value ∧ attr.flags = stream.flags ∧
      stream.runs = [] ∧ stream.data_size = value.length := by
  obtain ⟨-, value_offset, _, body, same, rest⟩ | ⟨outside, -⟩ := captureAttribute_cases captured
  · cases inside.symm.trans same
    exact ⟨value_offset, body, rest⟩
  · rw [outside] at inside
    cases inside

/-- A resident value with the given flags. -/
def AttrScratch.ofValue (flags : AttributeFlags) (value : Bytes) : AttrScratch where
  flags := flags
  resident := some value
  runs := []
  data_size := value.length
  initialized_size := value.length
  alloc_size := align8 value.length

theorem updateResident_eq_some {record updated : FileRecord} {old : DataAttribute}
    {value' : Bytes} {value_offset : Nat}
    (stored : record.updateResident v value' = some updated) (data : record.data = some old)
    (body : old.body = .resident value_offset value) (short : value'.length ≤ RESIDENT_DATA_MAX) :
    ∃ attr, updated = { record with data := some attr } ∧
      captureAttribute v attr none = some (.ofValue old.flags value', 0) := by
  obtain ⟨_, data', stored⟩ := Option.bind_eq_some_iff.mp stored
  rw [data] at data'
  cases data'
  simp only [body] at stored
  obtain ⟨resized, resized_eq, stored⟩ := Option.bind_eq_some_iff.mp stored
  cases stored
  have flags : resized.flags = old.flags := by
    unfold FileRecord.resizeAttr at resized_eq
    split at resized_eq
    · cases resized_eq
      rfl
    split at resized_eq
    · cases resized_eq
    · cases resized_eq
      rfl
  refine ⟨_, rfl, ?_⟩
  have fits : ¬1024 < value'.length := by
    simp only [RESIDENT_DATA_MAX] at short
    omega
  simp [captureAttribute, fits, flags, AttrScratch.ofValue, align8]

theorem FileAt.rewriteResident {attr : AttrScratch} {value value' : Bytes} {own : Nat → Prop}
    {base updated : FileRecord} {state : VolumeState} (file : FileAt v state number attr)
    (inside : attr.resident = some value) (found : state.record? number = some base)
    (stored : base.updateResident v value' = some updated)
    (short : value'.length ≤ RESIDENT_DATA_MAX) :
    Rewritten v number own value'.length (value'.getD · 0) state
      { state with records := Function.update state.records number (.live updated) } := by
  cases data : base.data with
  | none => simp [FileRecord.updateResident, data] at stored
  | some old =>
    obtain ⟨unlisted, next_vcn, captured⟩ := file.resident_direct inside found data
    obtain ⟨value_offset, body, flags, -, -⟩ := captureAttribute_resident captured inside
    obtain ⟨rewritten, rfl, recaptured⟩ := updateResident_eq_some stored data body short
    refine ⟨⟨.ofValue old.flags value', ?_, ?_, rfl, fun _ _ => rfl⟩,
      ⟨fun _ used => used, fun _ _ _ => rfl⟩, RecordsKept.of_update (.inr (.inl rfl))⟩
    · rw [@fileStream_direct v _ _ { base with data := some rewritten }
        (record?_update (record?_inside found)) unlisted]
      simp [collectDirect, recaptured]
    · refine ⟨?_, ?_, ?_, ?_, ?_, ?_, ?_⟩
      · exact flags ▸ file.sound.plain
      · exact flags ▸ file.sound.clear
      · rintro _ ⟨⟩
        rfl
      all_goals exact fun outside => by simp [AttrScratch.ofValue] at outside

theorem convertResidentAndAppend_returns {number : Nat} {attr : AttrScratch} {value data : Bytes}
    {durable : Bool} {before : VolumeState} (file : FileAt v before number attr)
    (inside : attr.resident = some value) (nonempty : data ≠ []) :
    Returns v (fun status after => status = .ok → AppendRewritten v number attr data before after)
      (convertResidentAndAppend v parent name number value data (value.length + data.length) durable)
      before := by
  obtain ⟨size, runs_eq⟩ := file.sound.resident value inside
  have cluster_bytes_pos := file.cluster_bytes_pos
  unfold convertResidentAndAppend
  split
  · exact (abortWrite_rejects (by simp)).unless _
  split
  · exact (abortWrite_rejects (by simp)).unless _
  rename_i rounded_total rounded_eq
  obtain ⟨-, rfl⟩ := checkedAddU64_eq_some.mp rounded_eq
  simp only
  refine (allocateClusters_returns _ _ _).seq ?_
  intro result marked producing
  cases result with
  | failed status => exact (abortWrite_rejects producing).unless _
  | produced runs =>
    obtain ⟨allocated, few⟩ := producing
    simp only
    split
    · exact (abortWriteFreeing_rejects (by simp)).unless _
    rename_i alloc_bytes alloc_eq
    obtain ⟨small, rfl⟩ := checkedMulU64_eq_some.mp alloc_eq
    have failed := @abortWriteFreeing_rejects v runs .io (by simp)
    refine (durableFlush_returns _ _).guards failed.unless ?_
    rintro flushed rfl
    have once := allocated.planned.once
    refine .require (.mono (?_ : Returns v (fun succeeded written => succeeded = true →
      Written v.cluster_bytes (clusterMap runs) 0 value flushed written) _ _)
      fun succeeded written writing => ?_)
    · split
      · rename_i empty
        refine .pure fun _ => ?_
        rw [empty]
        exact .refl
      · exact (writeRunBytes_returns cluster_bytes_pos once).mono fun _ _ writing ok =>
          (writing ok).2
    refine ⟨fun ok => ?_, fun _ => failed.unless _⟩
    have former := writing ok
    refine (writeRunBytes_returns cluster_bytes_pos once).guards
      failed.unless fun written' writing => ?_
    obtain ⟨valid, further⟩ := writing rfl
    refine (durableFlush_returns _ _).guards failed.unless ?_
    rintro flushed' rfl
    have same : RecordsSame before flushed' :=
      (allocated.recordsSame.trans former.recordsSame).trans further.recordsSame
    refine (loadRecord_returns _ _).seq ?_
    rintro record during ⟨rfl, loaded⟩
    cases record with
    | none => exact failed.unless _
    | some record =>
      have found := loaded record rfl
      rw [same.record?] at found
      simp only
      split
      · exact failed.unless _
      rename_i inserted inserted_eq
      obtain ⟨removed, removed_eq, inserted_eq⟩ := Option.bind_eq_some_iff.mp inserted_eq
      obtain ⟨old, data_eq, rfl⟩ := Option.map_eq_some_iff.mp removed_eq
      obtain ⟨unlisted, -⟩ := file.resident_direct inside found data_eq
      split
      · exact (abortWriteFreeing_rejects (by simp)).unless _
      rename_i updated updated_eq
      unfold FileRecord.insertData at inserted_eq
      split at inserted_eq
      · cases inserted_eq
      cases inserted_eq
      have room := further.room nonempty
      have length := List.length_pos_of_ne_nil nonempty
      have rewritable : Rewritable v runs (value.length + data.length)
          (value.length + data.length) := by
        refine ⟨.refl, valid, ?_, fun empty => ?_⟩
        · exact Nat.le_trans few (by decide)
        · rw [empty] at room
          omega
      obtain ⟨attr', shape, -, -, captured⟩ := updateNonResident_eq_some updated_eq rfl
        ⟨_, rfl, rfl⟩ rewritable.sizes rewritable.valid rewritable.short rewritable.nonempty
      refine (storeRecord_returns _ _ _).guards
        (fun _ => .pure (by simp)) fun stored storing => ?_
      have stored_eq := storing rfl
      refine (durableFlush_returns _ _).guards (fun _ => .pure (by simp)) ?_
      rintro stored' rfl
      refine (finishAppend_returns _ _ _ _).mono fun status after finished ok => ?_
      refine Rewritten.quiet ?_ (finished ok)
      have kept : ClustersKept v (some · ∈ clusterMap attr.runs) before during :=
        (allocated.clustersKept (some · ∈ clusterMap attr.runs)).trans
          ((former.clustersKept v rfl).trans (further.clustersKept v rfl) fun _ owned _ => owned)
          allocated.planned.foreign
      have unlisted' : updated.attribute_lists = [] := by rw [shape]; exact unlisted
      have stream : fileStream v stored' number = .found (.nonResident ⟨false, false, false⟩ runs
          (value.length + data.length) (value.length + data.length)
          (((value.length + data.length + (v.cluster_bytes - 1)) / v.cluster_bytes) *
            v.cluster_bytes)) := by
        have stored_found : stored'.record? number = some updated := by
          rw [stored_eq]
          exact record?_update (by rw [same.record_count]; exact record?_inside found)
        rw [fileStream_direct stored_found unlisted', collectDirect, shape]
        simp only [captured]
        rfl
      have bytes_eq : stored'.bytes = during.bytes := by rw [stored_eq]
      show Rewritten v number _ (attr.data_size + data.length)
        (appendedByte _ attr.data_size data) before stored'
      rw [size]
      refine ⟨⟨_, stream, ⟨rfl, rfl, by simp [AttrScratch.nonResident], fun _ => valid,
        fun _ => ?_, fun _ => .refl, fun _ => room⟩, rfl, fun position within => ?_⟩,
        ?_, ?_⟩
      · rw [← allocated.length] at small
        exact small
      · simp only [AttrScratch.byteAt, AttrScratch.nonResident, within, if_true, bytes_eq,
          further.inside, former.inside, appendedByte, AttrScratch.visibleByte, inside,
          Nat.zero_le, true_and, Nat.zero_add, Nat.sub_zero, and_true]
        by_cases kept : position < value.length
        · rw [if_neg (by omega), if_pos kept, if_pos kept]
        · rw [if_pos (by omega), if_neg kept]
      · rw [stored_eq]
        exact ⟨kept.used, kept.bytes⟩
      · rw [stored_eq]
        refine same.kept.trans (@RecordsKept.of_update _ (fun n => n = number) _ _ rfl) ?_
        intro other member
        exact .inl (.inr (.inl member))

/-- A resident stream is extended in its record or moved to clusters. -/
theorem appendResident_returns
    (file : FileAt v before number attr) (inside : attr.resident = some value)
    (nonempty : data ≠ []) :
    Returns v (fun status after => status = .ok → AppendRewritten v number attr data before after)
      (appendResident v parent name number value data durable) before := by
  have convert := @convertResidentAndAppend_returns v parent name _ _ _ _ durable _ file inside nonempty
  obtain ⟨size, -⟩ := file.sound.resident value inside
  unfold appendResident
  simp only
  split
  · rename_i short
    refine (loadRecord_returns _ _).seq ?_
    rintro record during ⟨rfl, loaded⟩
    cases record with
    | none => exact .pure (by simp)
    | some record =>
      simp only
      split
      · rename_i updated updated_eq
        refine (storeRecord_returns _ _ _).guards
          (fun _ => .pure (by simp)) fun stored storing => ?_
        obtain rfl := storing rfl
        refine (durableFlush_returns _ _).guards (fun _ => .pure (by simp)) ?_
        rintro flushed rfl
        refine (finishAppend_returns _ _ _ _).mono fun status after finished ok => ?_
        have rewritten := @FileAt.rewriteResident v number attr _ _ (some · ∈ clusterMap attr.runs) _ _ _ file inside
          (loaded record rfl) updated_eq (by rwa [List.length_append])
        rw [List.length_append] at rewritten
        show Rewritten v number _ (attr.data_size + data.length)
          (appendedByte _ attr.data_size data) during after
        rw [size]
        refine (rewritten.congr fun position within => ?_).quiet (finished ok)
        simp only [appendedByte, AttrScratch.visibleByte, inside, List.getD_eq_getElem?_getD,
          List.getElem?_append]
        split <;> rfl
      · exact convert
  · exact convert

theorem Rewritten.after_quiet (quiet : Quiet before during)
    (rewritten : Rewritten v number own data_size byte during after) :
    Rewritten v number own data_size byte before after where
  stream := rewritten.stream
  clusters := (quiet.clustersKept own).trans rewritten.clusters fun _ owned _ => owned
  records := quiet.records.kept.trans rewritten.records fun changed member =>
    .inl ((OwnRecord.same quiet.records changed).mp member)

theorem requireSingleLinkStatus_returns (number expected_sequence : Nat) (before : VolumeState) :
    Returns v (fun _ after => after = before)
      (requireSingleLinkStatus number expected_sequence) before := by
  unfold requireSingleLinkStatus
  refine (loadRecord_returns _ _).seq ?_
  rintro record after ⟨rfl, -⟩
  split
  · exact .pure rfl
  split
  · exact .pure rfl
  · exact .pure rfl

theorem appendCollected_returns {found : DirectoryEntry}
    (file : FileAt v before found.record attr) (nonempty : data ≠ []) :
    Returns v (fun status after => status = .ok →
      AppendRewritten v found.record attr data before after)
      (appendCollected v parent name found attr data durable) before := by
  unfold appendCollected
  refine (requireSingleLinkStatus_returns _ _ _).seq ?_
  rintro status after rfl
  split
  · split
    · exact .pure (by simp)
    rename_i total total_eq
    obtain ⟨-, rfl⟩ := checkedAddU64_eq_some.mp total_eq
    refine (setDirty_returns _ _).guards (fun _ => .pure (by simp)) fun during quiet => ?_
    have file := file.quiet quiet
    have back : ∀ (status : WriteStatus) (final : VolumeState),
        (status = .ok → AppendRewritten v found.record attr data during final) →
        status = .ok → AppendRewritten v found.record attr data after final := by
      intro status final rewritten ok
      have rewritten := rewritten ok
      simp only [AppendRewritten, quiet.bytes] at rewritten
      exact rewritten.after_quiet quiet
    split
    · rename_i value inside
      exact (appendResident_returns file inside nonempty).mono back
    · rename_i outside
      exact (appendNonResident_returns file outside nonempty).mono back
  · rename_i failed
    exact .pure fun ok => absurd ok failed

theorem appendFileAtOffsetImpl_returns {expected_offset : Nat} (file : FileAt v before number attr)
    (named : ∀ found, v.directory parent name = some found → found.record = number) :
    Returns v (fun status after => status = .ok →
      (data = [] ∧ Quiet before after) ∨
        (data ≠ [] ∧ AppendRewritten v number attr data before after))
      (appendFileAtOffsetImpl v parent name expected_offset data durable) before := by
  unfold appendFileAtOffsetImpl
  split
  · exact .pure (by simp)
  refine .seq (show Returns v (fun result after => after = before ∧ ∀ entry, result = some entry →
    entry = v.directory parent name) _ _ from .perform ⟨rfl, ?_⟩ ?_) ?_
  · rintro entry ⟨⟩
    rfl
  · rintro answer after ⟨rfl, rfl⟩
    exact ⟨rfl, by simp⟩
  rintro result after ⟨rfl, looked_up⟩
  match result, looked_up with
  | none, _ => exact .pure (by simp)
  | some none, _ => exact .pure (by simp)
  | some (some found), looked_up =>
    obtain rfl := named found (looked_up _ rfl).symm
    simp only
    split
    · exact .pure (by simp)
    refine .require (.mono (?_ : Returns v (fun _ during => during = after) _ _) ?_)
    · unfold lookupResultIsLive
      refine (loadRecord_returns _ _).seq ?_
      rintro record during ⟨rfl, -⟩
      split <;> exact .pure rfl
    rintro succeeded during rfl
    refine ⟨fun _ => ?_, fun _ => .pure (by simp)⟩
    refine (collectAttributeStatus_returns _ _).seq ?_
    rintro collected after ⟨rfl, collecting⟩
    cases collected with
    | not_found | io => exact .pure (by simp)
    | found attr' =>
      have same := collecting attr' rfl
      rw [file.stream] at same
      obtain rfl : attr = attr' := by injection same
      simp only
      split
      · exact .pure (by simp)
      split
      · exact .pure (by simp)
      split
      · rename_i empty
        exact .pure fun _ => .inl ⟨empty, .refl⟩
      · rename_i nonempty
        exact (appendCollected_returns file nonempty).mono fun _ _ rewritten ok =>
          .inr ⟨nonempty, rewritten ok⟩

end

end R4OS.Ntfs
