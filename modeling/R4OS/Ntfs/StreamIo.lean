import R4OS.Ntfs.Attributes

/-!
# The byte stream of a run list

A run list maps every cluster of a stream to a cluster of the volume or to a hole.  Reading and
writing a run list is reading and writing that stream, and touches no other cluster.
-/

namespace R4OS.Ntfs

open Crash Text

section Returns

variable {v : Volume} {First Second : Type} {before : VolumeState}

variable {post : First → VolumeState → Prop} {program : VolumeProgram First}

/-- Every execution of a program that returns satisfies the assertion. -/
def Returns (v : Volume) (post : First → VolumeState → Prop) (program : VolumeProgram First)
    (before : VolumeState) : Prop :=
  Ensures (device v) (fun _ => True) post program before

theorem Returns.pure {result : First}
    (holds : post result before) : Returns v post (pure result) before :=
  Ensures.pure trivial holds

theorem Returns.mono {post' : First → VolumeState → Prop} (returns : Returns v post program before)
    (weaker : ∀ result after, post result after → post' result after) :
    Returns v post' program before :=
  Ensures.mono returns (fun _ kept => kept) fun result after _ => weaker result after

theorem Returns.bind {post : Second → VolumeState → Prop} {rest : First → VolumeProgram Second}
    (returns : Returns v (fun result after => Returns v post (rest result) after) program before) :
    Returns v post (program >>= rest) before :=
  Ensures.bind returns

theorem Returns.seq {middle : First → VolumeState → Prop} {post : Second → VolumeState → Prop} {rest : First → VolumeProgram Second}
    (first : Returns v middle program before)
    (second : ∀ result after, middle result after → Returns v post (rest result) after) :
    Returns v post (program >>= rest) before :=
  (first.mono second).bind

theorem Returns.perform {call : VolumeCall} {post : call.Answer → VolumeState → Prop}
    (succeeds : post (call.succeed v before).1 (call.succeed v before).2)
    (fails : ∀ answer after, call.Fails before answer after → post answer after) :
    Returns v post call.perform before := by
  refine Ensures.perform trivial fun answer after transition => ⟨trivial, ?_⟩
  rcases transition with success | failure
  · rw [success] at succeeds
    exact succeeds
  · exact fails answer after failure

theorem Returns.require {step : VolumeProgram Bool} {failed next : VolumeProgram First}
    (returns : Returns v (fun succeeded after =>
      (succeeded = true → Returns v post next after) ∧
        (succeeded = false → Returns v post failed after)) step before) :
    Returns v post (require step failed next) before := by
  refine .seq returns fun succeeded after branches => ?_
  cases succeeded with
  | true => exact branches.1 rfl
  | false => exact branches.2 rfl

theorem Returns.guards {step : VolumeProgram Bool} {failed next : VolumeProgram First}
    {kept : Bool → VolumeState → Prop} (returns : Returns v kept step before)
    (failing : ∀ during, Returns v post failed during)
    (succeeding : ∀ during, kept true during → Returns v post next during) :
    Returns v post (Ntfs.require step failed next) before :=
  Returns.require (returns.mono fun _ during held =>
    ⟨fun ok => succeeding during (ok ▸ held), fun _ => failing during⟩)

theorem Returns.of_execution
    {result : First} {after : VolumeState} (returns : Returns v post program before)
    (execution : Execution (device v) program before (some result) after) : post result after :=
  (Ensures.sound returns execution).2 result rfl

theorem Returns.trivial (program : VolumeProgram First) :
    Returns v (fun _ _ => True) program before :=
  Ensures.of_invariant program (fun _ _ _ _ _ _ => True.intro) True.intro

end Returns

def Run.clusters (run : Run) : List (Option Nat) :=
  (List.range run.length_clusters).map fun index => run.lcn.map (· + index)

def clusterMap (runs : List Run) : List (Option Nat) := runs.flatMap Run.clusters

@[simp] theorem clusterMap_nil : clusterMap [] = [] := rfl

@[simp] theorem clusterMap_cons (run : Run) (runs : List Run) :
    clusterMap (run :: runs) = run.clusters ++ clusterMap runs := rfl

@[simp] theorem clusterMap_append (runs runs' : List Run) :
    clusterMap (runs ++ runs') = clusterMap runs ++ clusterMap runs' := List.flatMap_append

@[simp] theorem Run.clusters_length (run : Run) : run.clusters.length = run.length_clusters := by
  simp [Run.clusters]

theorem Run.clusters_getElem? (run : Run) {index : Nat} (inside : index < run.length_clusters) :
    run.clusters[index]? = some (run.lcn.map (· + index)) := by
  simp [Run.clusters, inside]

variable {run : Run}

theorem Run.mem_clusters {cluster : Nat} :
    some cluster ∈ run.clusters ↔
      ∃ lcn, run.lcn = some lcn ∧ lcn ≤ cluster ∧ cluster < lcn + run.length_clusters := by
  simp only [Run.clusters, List.mem_map, List.mem_range, Option.map_eq_some_iff]
  constructor
  · rintro ⟨index, inside, lcn, located, rfl⟩
    exact ⟨lcn, located, by omega, by omega⟩
  · rintro ⟨lcn, located, lower, upper⟩
    exact ⟨cluster - lcn, by omega, lcn, located, by omega⟩

def mappedClusters (map : List (Option Nat)) : List Nat := map.filterMap id

theorem mem_mappedClusters {map : List (Option Nat)} {cluster : Nat} :
    cluster ∈ mappedClusters map ↔ some cluster ∈ map := by
  simp [mappedClusters]

@[simp] theorem mappedClusters_append (map map' : List (Option Nat)) :
    mappedClusters (map ++ map') = mappedClusters map ++ mappedClusters map' :=
  List.filterMap_append

/-- No volume cluster is mapped twice. -/
def MappedOnce (map : List (Option Nat)) : Prop := (mappedClusters map).Nodup

theorem mappedOnce_append {map map' : List (Option Nat)} :
    MappedOnce (map ++ map') ↔
      MappedOnce map ∧ MappedOnce map' ∧ ∀ cluster, some cluster ∈ map → some cluster ∉ map' := by
  rw [MappedOnce, mappedClusters_append, List.nodup_append]
  simp only [MappedOnce, mem_mappedClusters]
  constructor
  · rintro ⟨left, right, disjoint⟩
    exact ⟨left, right, fun cluster member member' => disjoint cluster member cluster member' rfl⟩
  · rintro ⟨left, right, disjoint⟩
    exact ⟨left, right, by rintro cluster member _ member' rfl; exact disjoint cluster member member'⟩

/-- The byte of a stream at a position.  Holes and positions behind the map read as zero. -/
def streamByte (cluster_bytes : Nat) (bytes : Nat → UInt8) (map : List (Option Nat))
    (position : Nat) : UInt8 :=
  match map[position / cluster_bytes]? with
  | some (some lcn) => bytes (lcn * cluster_bytes + position % cluster_bytes)
  | _ => 0

section Stream

variable {cluster_bytes : Nat} {bytes bytes' : Nat → UInt8} {map map' : List (Option Nat)}

variable {position : Nat}

theorem streamByte_congr (cluster_bytes_pos : 0 < cluster_bytes)
    (same : ∀ address, some (address / cluster_bytes) ∈ map → bytes address = bytes' address)
    (position : Nat) :
    streamByte cluster_bytes bytes map position = streamByte cluster_bytes bytes' map position := by
  unfold streamByte
  cases found : map[position / cluster_bytes]? with
  | none => rfl
  | some cluster =>
    cases cluster with
    | none => rfl
    | some lcn =>
      refine same _ ?_
      have within : position % cluster_bytes < cluster_bytes := Nat.mod_lt _ cluster_bytes_pos
      rw [Nat.mul_comm, Nat.mul_add_div cluster_bytes_pos, Nat.div_eq_of_lt within,
        Nat.add_zero]
      exact List.mem_of_getElem? found

theorem streamByte_behind (cluster_bytes_pos : 0 < cluster_bytes)
    (behind : map.length * cluster_bytes ≤ position) :
    streamByte cluster_bytes bytes map position = 0 := by
  have index : map.length ≤ position / cluster_bytes :=
    (Nat.le_div_iff_mul_le cluster_bytes_pos).2 behind
  simp [streamByte, List.getElem?_eq_none index]

theorem streamByte_append_left (inside : position < map.length * cluster_bytes) :
    streamByte cluster_bytes bytes (map ++ map') position =
      streamByte cluster_bytes bytes map position := by
  have index : position / cluster_bytes < map.length :=
    Nat.div_lt_of_lt_mul (by rwa [Nat.mul_comm])
  simp [streamByte, List.getElem?_append_left index]

theorem streamByte_append_right (cluster_bytes_pos : 0 < cluster_bytes) :
    streamByte cluster_bytes bytes (map ++ map') (map.length * cluster_bytes + position) =
      streamByte cluster_bytes bytes map' position := by
  have index : (map.length * cluster_bytes + position) / cluster_bytes =
      map.length + position / cluster_bytes := by
    rw [Nat.mul_comm, Nat.mul_add_div cluster_bytes_pos]
  have offset : (map.length * cluster_bytes + position) % cluster_bytes =
      position % cluster_bytes := by
    rw [Nat.mul_comm, Nat.mul_add_mod]
  simp [streamByte, index, offset, List.getElem?_append_right]

theorem streamByte_run {run : Run} {lcn : Nat} (located : run.lcn = some lcn)
    (inside : position < run.length_clusters * cluster_bytes) :
    streamByte cluster_bytes bytes run.clusters position = bytes (lcn * cluster_bytes + position) := by
  have index : position / cluster_bytes < run.length_clusters :=
    Nat.div_lt_of_lt_mul (by rwa [Nat.mul_comm])
  have address : (lcn + position / cluster_bytes) * cluster_bytes + position % cluster_bytes =
      lcn * cluster_bytes + position := by
    rw [Nat.add_mul, Nat.add_assoc, Nat.mul_comm (position / cluster_bytes), Nat.div_add_mod]
  simp [streamByte, run.clusters_getElem? index, located, address]

theorem streamByte_hole {run : Run} (hole : run.lcn = none) :
    streamByte cluster_bytes bytes run.clusters position = 0 := by
  unfold streamByte
  by_cases index : position / cluster_bytes < run.length_clusters
  · simp [run.clusters_getElem? index, hole]
  · simp [List.getElem?_eq_none (show run.clusters.length ≤ position / cluster_bytes by
      rw [run.clusters_length]; omega)]

def streamSlice (cluster_bytes : Nat) (bytes : Nat → UInt8) (map : List (Option Nat))
    (offset length : Nat) : Bytes :=
  (List.range length).map fun position => streamByte cluster_bytes bytes map (offset + position)

theorem streamSlice_add (offset first second : Nat) :
    streamSlice cluster_bytes bytes map offset (first + second) =
      streamSlice cluster_bytes bytes map offset first ++
        streamSlice cluster_bytes bytes map (offset + first) second := by
  simp [streamSlice, List.range_add, Nat.add_assoc]

end Stream

theorem overwrite_nil (bytes : Nat → UInt8) (offset : Nat) : overwrite bytes offset [] = bytes := by
  funext address
  have : ¬(offset ≤ address ∧ address < offset) := by omega
  simp [overwrite, this]

theorem overwrite_outside {bytes : Nat → UInt8} {offset address : Nat} {data : Bytes}
    (outside : address < offset ∨ offset + data.length ≤ address) :
    overwrite bytes offset data address = bytes address := by
  unfold overwrite
  rw [if_neg (by omega)]

section

variable {v : Volume}

variable {lcn length cluster_bytes start offset : Nat} {map : List (Option Nat)}
  {before : VolumeState} {run : Run} {bytes : Nat → UInt8}

variable {byte_offset : Nat}

theorem lcnByteRange_eq_some {first_byte : Nat}
    (range : lcnByteRange v lcn byte_offset length = some first_byte) :
    first_byte = lcn * v.cluster_bytes + byte_offset ∧ lcn < v.totalClusters ∧
      byte_offset + length ≤ (v.totalClusters - lcn) * v.cluster_bytes := by
  unfold lcnByteRange at range
  split at range
  · cases range
  rename_i geometry
  simp only [not_not] at geometry
  obtain ⟨lcn_window, window_eq, range⟩ := Option.bind_eq_some_iff.mp range
  obtain ⟨-, rfl⟩ := checkedMulU64_eq_some.mp window_eq
  split at range
  · rename_i inside
    obtain ⟨volume_bytes, -, range⟩ := Option.bind_eq_some_iff.mp range
    obtain ⟨lcn_bytes, lcn_eq, range⟩ := Option.bind_eq_some_iff.mp range
    obtain ⟨first, first_eq, range⟩ := Option.bind_eq_some_iff.mp range
    obtain ⟨-, rfl⟩ := checkedMulU64_eq_some.mp lcn_eq
    obtain ⟨-, rfl⟩ := checkedAddU64_eq_some.mp first_eq
    split at range
    · exact ⟨(Option.some.inj range).symm, geometry.2.2, by omega⟩
    · cases range
  · cases range

theorem Volume.totalClusters_mul_le (v : Volume) :
    v.totalClusters * v.cluster_bytes ≤ v.total_sectors * SECTOR_SIZE := by
  unfold Volume.totalClusters
  split
  · simp
  · rename_i geometry
    simp only [not_or, not_not] at geometry
    obtain ⟨sectors, sectors_eq⟩ : SECTOR_SIZE ∣ v.cluster_bytes :=
      Nat.dvd_of_mod_eq_zero geometry.2
    rw [sectors_eq, Nat.mul_div_cancel_left _ (by decide), ← Nat.mul_assoc,
      Nat.mul_right_comm]
    exact Nat.mul_le_mul_right _ (Nat.div_mul_le_self _ _)

theorem lcnByteRange_of_inside {length clusters : Nat} (geometry : v.geometryValid = true)
    (inside : lcn + clusters ≤ v.totalClusters) (clusters_pos : 0 < clusters)
    (room : byte_offset + length ≤ clusters * v.cluster_bytes) :
    lcnByteRange v lcn byte_offset length = some (lcn * v.cluster_bytes + byte_offset) := by
  simp only [Volume.geometryValid, Bool.and_eq_true, decide_eq_true_eq] at geometry
  obtain ⟨⟨nonzero, aligned⟩, sized⟩ := geometry
  obtain ⟨volume_bytes, volume_eq⟩ := Option.isSome_iff_exists.mp sized
  obtain ⟨volume_lt, rfl⟩ := checkedMulU64_eq_some.mp volume_eq
  have total_le := v.totalClusters_mul_le
  have window : clusters * v.cluster_bytes ≤ (v.totalClusters - lcn) * v.cluster_bytes :=
    Nat.mul_le_mul_right _ (by omega)
  have split_total : lcn * v.cluster_bytes + (v.totalClusters - lcn) * v.cluster_bytes =
      v.totalClusters * v.cluster_bytes := by
    rw [← Nat.add_mul]
    congr 1
    omega
  unfold lcnByteRange
  rw [if_neg (by simp only [not_not]; exact ⟨nonzero, aligned, by omega⟩)]
  simp only [checkedMulU64, checkedAddU64, Option.bind_eq_bind]
  rw [if_pos (by omega), Option.bind_some, if_pos (by omega), if_pos volume_lt, Option.bind_some,
    if_pos (by omega), Option.bind_some, if_pos (by omega), Option.bind_some, if_pos (by omega)]

theorem writeLcnBytesProgress_returns (lcn byte_offset : Nat) (data : Bytes)
    (before : VolumeState) :
    Returns v (fun result after => result = .ok () →
      after = { before with
        bytes := overwrite before.bytes (lcn * v.cluster_bytes + byte_offset) data })
      (writeLcnBytesProgress v lcn byte_offset data) before := by
  unfold writeLcnBytesProgress
  split
  · exact .pure (by simp)
  · rename_i first_byte range
    obtain ⟨rfl, -, -⟩ := lcnByteRange_eq_some range
    split
    · rename_i empty
      exact .pure fun _ => by rw [empty, overwrite_nil]
    · split
      · exact .pure (by simp)
      · refine .perform (fun _ => rfl) ?_
        rintro answer after ⟨completed, bytes, rfl, -⟩
        simp

/-- A write to the stream of a map that changed nothing else. -/
structure Written (cluster_bytes : Nat) (map : List (Option Nat)) (start : Nat) (data : Bytes)
    (before after : VolumeState) : Prop where
  frame : after = { before with bytes := after.bytes }
  outside : ∀ address, some (address / cluster_bytes) ∉ map →
    after.bytes address = before.bytes address
  inside : ∀ position, streamByte cluster_bytes after.bytes map position =
    if start ≤ position ∧ position < start + data.length then data.getD (position - start) 0
    else streamByte cluster_bytes before.bytes map position
  room : data ≠ [] → start + data.length ≤ map.length * cluster_bytes

theorem Written.refl :
    Written cluster_bytes map start [] before before where
  frame := rfl
  outside _ _ := rfl
  inside position := by
    rw [if_neg (by simp)]
  room := by simp

theorem Written.move_empty {start' : Nat}
    {after : VolumeState} (written : Written cluster_bytes map start [] before after) :
    Written cluster_bytes map start' [] before after where
  frame := written.frame
  outside := written.outside
  inside position := by
    rw [written.inside, if_neg (by simp), if_neg (by simp)]
  room := by simp

theorem div_mem_clusters {address : Nat}
    (cluster_bytes_pos : 0 < cluster_bytes) (located : run.lcn = some lcn)
    (lower : lcn * cluster_bytes ≤ address)
    (upper : address < lcn * cluster_bytes + run.length_clusters * cluster_bytes) :
    some (address / cluster_bytes) ∈ run.clusters := by
  refine Run.mem_clusters.mpr ⟨lcn, located, ?_, ?_⟩
  · exact (Nat.le_div_iff_mul_le cluster_bytes_pos).2 lower
  · exact (Nat.div_lt_iff_lt_mul cluster_bytes_pos).2 (by rwa [Nat.add_mul])

theorem Written.skip {data : Bytes} {after : VolumeState} (cluster_bytes_pos : 0 < cluster_bytes)
    (disjoint : ∀ cluster, some cluster ∈ run.clusters → some cluster ∉ map)
    (behind : run.length_clusters * cluster_bytes ≤ start)
    (written : Written cluster_bytes map (start - run.length_clusters * cluster_bytes) data
      before after) :
    Written cluster_bytes (run.clusters ++ map) start data before after where
  frame := written.frame
  outside address unmapped := written.outside address fun member =>
    unmapped (List.mem_append_right _ member)
  inside position := by
    by_cases head : position < run.length_clusters * cluster_bytes
    · have kept := @streamByte_congr _ after.bytes before.bytes run.clusters cluster_bytes_pos
        (fun address member => written.outside address (disjoint _ member)) position
      rw [streamByte_append_left (by simpa using head), streamByte_append_left (by simpa using head),
        if_neg (by omega), kept]
    · obtain ⟨rest, rfl⟩ := Nat.exists_eq_add_of_le (Nat.le_of_not_lt head)
      have right := fun bytes => @streamByte_append_right _ bytes run.clusters map rest
        cluster_bytes_pos
      simp only [Run.clusters_length] at right
      rw [right, right, written.inside]
      have shift : run.length_clusters * cluster_bytes + rest - start =
          rest - (start - run.length_clusters * cluster_bytes) := by omega
      have range : (start - run.length_clusters * cluster_bytes ≤ rest ∧
          rest < start - run.length_clusters * cluster_bytes + data.length) ↔
          (start ≤ run.length_clusters * cluster_bytes + rest ∧
            run.length_clusters * cluster_bytes + rest < start + data.length) := by omega
      simp only [range, shift]
  room nonempty := by
    have := written.room nonempty
    simp only [List.length_append, Run.clusters_length, Nat.add_mul]
    omega

theorem Written.head {cluster_bytes start lcn : Nat} {run : Run} {map : List (Option Nat)}
    {data : Bytes} {before after : VolumeState} (cluster_bytes_pos : 0 < cluster_bytes)
    (disjoint : ∀ cluster, some cluster ∈ run.clusters → some cluster ∉ map)
    (located : run.lcn = some lcn) (inside : start < run.length_clusters * cluster_bytes)
    (written : Written cluster_bytes map 0
      (data.drop (min (run.length_clusters * cluster_bytes - start) data.length))
      { before with
        bytes := overwrite before.bytes (lcn * cluster_bytes + start)
          (data.take (min (run.length_clusters * cluster_bytes - start) data.length)) } after) :
    Written cluster_bytes (run.clusters ++ map) start data before after := by
  generalize take_eq : min (run.length_clusters * cluster_bytes - start) data.length = take
    at written
  have taken : (data.take take).length = take := by
    rw [List.length_take]
    omega
  have middle : ∀ address, some (address / cluster_bytes) ∉ run.clusters →
      overwrite before.bytes (lcn * cluster_bytes + start) (data.take take) address =
        before.bytes address := by
    intro address unmapped
    refine overwrite_outside ?_
    by_contra within
    refine unmapped (div_mem_clusters cluster_bytes_pos located ?_ ?_)
    · omega
    · omega
  refine ⟨written.frame, fun address unmapped => ?_, fun position => ?_, fun nonempty => ?_⟩
  · rw [List.mem_append, not_or] at unmapped
    exact (written.outside address unmapped.2).trans (middle address unmapped.1)
  · by_cases head : position < run.length_clusters * cluster_bytes
    · rw [streamByte_append_left (by simpa using head), streamByte_append_left (by simpa using head),
        streamByte_run located head, streamByte_run located head]
      have member : some ((lcn * cluster_bytes + position) / cluster_bytes) ∈ run.clusters :=
        div_mem_clusters cluster_bytes_pos located (by omega) (by omega)
      rw [written.outside _ (disjoint _ member)]
      simp only [overwrite, taken]
      by_cases range : start ≤ position ∧ position < start + data.length
      · rw [if_pos range, if_pos (by omega)]
        have offset : lcn * cluster_bytes + position - (lcn * cluster_bytes + start) =
            position - start := by omega
        rw [offset, List.getD_eq_getElem?_getD, List.getD_eq_getElem?_getD,
          List.getElem?_take_of_lt (by omega)]
      · rw [if_neg range, if_neg (by omega)]
    · obtain ⟨rest, rfl⟩ := Nat.exists_eq_add_of_le (Nat.le_of_not_lt head)
      have right := fun bytes => @streamByte_append_right _ bytes run.clusters map rest
        cluster_bytes_pos
      simp only [Run.clusters_length] at right
      have kept := @streamByte_congr _ (overwrite before.bytes (lcn * cluster_bytes + start)
        (data.take take)) before.bytes map cluster_bytes_pos
        (fun address member => middle address fun member' => disjoint _ member' member) rest
      rw [right, right, written.inside, kept]
      simp only [List.length_drop, Nat.zero_le, true_and, Nat.zero_add, Nat.sub_zero]
      by_cases range : rest < data.length - take
      · rw [if_pos range, if_pos (by omega), List.getD_eq_getElem?_getD,
          List.getD_eq_getElem?_getD, List.getElem?_drop]
        congr 2
        omega
      · rw [if_neg range, if_neg (by omega)]
  · simp only [List.length_append, Run.clusters_length, Nat.add_mul]
    by_cases more : data.drop take = []
    · have := congrArg List.length more
      simp only [List.length_drop, List.length_nil] at this
      omega
    · have := written.room more
      simp only [List.length_drop] at this
      have shorter : take < data.length := by
        by_contra covered
        exact more (List.drop_eq_nil_of_le (Nat.le_of_not_lt covered))
      omega

theorem writeRuns_returns (cluster_bytes_pos : 0 < v.cluster_bytes) (runs : List Run)
    (run_start want_start : Nat) (data : Bytes) (completed : Nat) (before : VolumeState)
    (once : MappedOnce (clusterMap runs)) (ahead : data ≠ [] → run_start ≤ want_start) :
    Returns v (fun result after => result = .ok () →
      Written v.cluster_bytes (clusterMap runs) (want_start - run_start) data before after)
      (writeRuns v runs run_start want_start data completed) before := by
  induction runs generalizing run_start want_start data completed before with
  | nil =>
    unfold writeRuns
    refine .pure fun ok => ?_
    split at ok
    · rename_i empty
      subst empty
      exact Written.refl
    · cases ok
  | cons run rest induction =>
    rw [clusterMap_cons, mappedOnce_append] at once
    obtain ⟨-, rest_once, disjoint⟩ := once
    unfold writeRuns
    split
    · exact .pure (by simp)
    rename_i run_bytes run_bytes_eq
    obtain ⟨-, rfl⟩ := checkedMulU64_eq_some.mp run_bytes_eq
    split
    · exact .pure (by simp)
    rename_i run_end run_end_eq
    obtain ⟨-, rfl⟩ := checkedAddU64_eq_some.mp run_end_eq
    split
    · rename_i empty
      subst empty
      exact .pure fun _ => Written.refl
    rename_i nonempty
    have start_le := ahead nonempty
    split
    · rename_i before_end
      split
      · exact .pure (by simp)
      simp only
      split
      · exact .pure (by simp)
      rename_i lcn located
      refine (writeLcnBytesProgress_returns _ _ _ _).seq fun result during wrote => ?_
      split
      · exact .pure (by simp)
      obtain rfl := wrote rfl
      have inside : want_start - run_start < run.length_clusters * v.cluster_bytes := by omega
      have take_eq : run_start + run.length_clusters * v.cluster_bytes - want_start =
          run.length_clusters * v.cluster_bytes - (want_start - run_start) := by omega
      rw [take_eq]
      refine (induction _ _ _ _ _ rest_once fun more => ?_).mono fun result after written ok => ?_
      · have : min (run.length_clusters * v.cluster_bytes - (want_start - run_start))
            data.length < data.length := by
          by_contra covered
          exact more (List.drop_eq_nil_of_le (Nat.le_of_not_lt covered))
        omega
      · have written := written ok
        by_cases more : data.drop (min (run.length_clusters * v.cluster_bytes -
            (want_start - run_start)) data.length) = []
        · rw [more] at written
          refine Written.head cluster_bytes_pos disjoint located inside ?_
          rw [more]
          exact written.move_empty
        · have next : want_start + min (run.length_clusters * v.cluster_bytes -
              (want_start - run_start)) data.length -
              (run_start + run.length_clusters * v.cluster_bytes) = 0 := by omega
          rw [next] at written
          exact Written.head cluster_bytes_pos disjoint located inside written
    · refine (induction _ _ _ _ _ rest_once fun _ => by omega).mono fun result after written ok =>
        ?_
      have written := written ok
      have behind : run.length_clusters * v.cluster_bytes ≤ want_start - run_start := by omega
      rw [← Nat.sub_sub] at written
      exact Written.skip cluster_bytes_pos disjoint behind written

/-- What a program answers when every device call succeeds. -/
def answer (v : Volume) {Result : Type} (program : VolumeProgram Result) (state : VolumeState) :
    Result :=
  (program.run (VolumeCall.succeed v) state).1

theorem mappedRunPhysicalRangeValid_of_clusters {runs : List Run} {clusters : Nat}
    (valid : (runlistClusters v clusters runs).isSome = true) :
    ∀ run ∈ runs, mappedRunPhysicalRangeValid v run = true := by
  induction runs generalizing clusters with
  | nil => simp
  | cons run rest induction =>
    obtain ⟨total, valid⟩ := Option.isSome_iff_exists.mp valid
    obtain ⟨next, -, valid⟩ := Option.bind_eq_some_iff.mp valid
    split at valid
    · rename_i mapped
      intro member inside
      rcases List.mem_cons.mp inside with rfl | inside
      · exact mapped
      · exact induction (Option.isSome_of_eq_some valid) member inside
    · cases valid

theorem readLcnBytes_run (lcn byte_offset length : Nat) (state : VolumeState) :
    (readLcnBytes v lcn byte_offset length).run (VolumeCall.succeed v) state =
      ((lcnByteRange v lcn byte_offset length).map fun first_byte =>
        slice state.bytes first_byte length, state) := by
  unfold readLcnBytes
  cases lcnByteRange v lcn byte_offset length with
  | none => rfl
  | some first_byte =>
    by_cases empty : length = 0
    · simp [empty, slice]
    · simp [empty, VolumeCall.perform, VolumeCall.succeed]

theorem streamSlice_run (located : run.lcn = some lcn)
    (inside : offset + length ≤ run.length_clusters * cluster_bytes) :
    streamSlice cluster_bytes bytes run.clusters offset length =
      slice bytes (lcn * cluster_bytes + offset) length := by
  refine List.map_congr_left fun position member => ?_
  rw [List.mem_range] at member
  rw [streamByte_run located (by omega), Nat.add_assoc]

theorem streamSlice_hole (hole : run.lcn = none) :
    streamSlice cluster_bytes bytes run.clusters offset length = List.replicate length 0 := by
  unfold streamSlice
  simp [streamByte_hole hole]

theorem streamSlice_append_left {map' : List (Option Nat)} (inside : offset + length ≤ map.length * cluster_bytes) :
    streamSlice cluster_bytes bytes (map ++ map') offset length =
      streamSlice cluster_bytes bytes map offset length := by
  refine List.map_congr_left fun position member => ?_
  rw [List.mem_range] at member
  exact streamByte_append_left (by omega)

theorem streamSlice_append_right {map' : List (Option Nat)} (cluster_bytes_pos : 0 < cluster_bytes) :
    streamSlice cluster_bytes bytes (map ++ map') (map.length * cluster_bytes + offset) length =
      streamSlice cluster_bytes bytes map' offset length := by
  refine List.map_congr_left fun position _ => ?_
  rw [Nat.add_assoc, streamByte_append_right cluster_bytes_pos]

theorem readRun_run {length : Nat} {state : VolumeState} (geometry : v.geometryValid = true)
    (valid : mappedRunPhysicalRangeValid v run = true)
    (inside : byte_offset + length ≤ run.length_clusters * v.cluster_bytes) :
    (readRun v run byte_offset length).run (VolumeCall.succeed v) state =
      (some (streamSlice v.cluster_bytes state.bytes run.clusters byte_offset length), state) := by
  unfold readRun
  cases located : run.lcn with
  | none => simp [streamSlice_hole located]
  | some lcn =>
    simp only [mappedRunPhysicalRangeValid, located, Bool.and_eq_true, decide_eq_true_eq] at valid
    have range := @lcnByteRange_of_inside v lcn byte_offset length _ geometry
      (by omega : lcn + run.length_clusters ≤ v.totalClusters)
      (Nat.pos_of_ne_zero valid.1.1) inside
    rw [readLcnBytes_run, range, streamSlice_run located inside]
    rfl

theorem readRuns_run (geometry : v.geometryValid = true) (runs : List Run)
    (run_start want_start want_len : Nat) (state : VolumeState)
    (valid : ∀ run ∈ runs, mappedRunPhysicalRangeValid v run = true)
    (small : run_start + (clusterMap runs).length * v.cluster_bytes < 2 ^ 64)
    (ahead : want_len ≠ 0 → run_start ≤ want_start) (room : want_len ≠ 0 →
      want_start + want_len ≤ run_start + (clusterMap runs).length * v.cluster_bytes) :
    (readRuns v runs run_start want_start want_len).run (VolumeCall.succeed v) state =
      (some (streamSlice v.cluster_bytes state.bytes (clusterMap runs) (want_start - run_start)
        want_len), state) := by
  have cluster_bytes_pos : 0 < v.cluster_bytes := by
    simp only [Volume.geometryValid, Bool.and_eq_true, decide_eq_true_eq] at geometry
    exact Nat.pos_of_ne_zero geometry.1.1
  induction runs generalizing run_start want_start want_len with
  | nil =>
    have empty : want_len = 0 := by
      by_contra nonempty
      have := room nonempty
      have := ahead nonempty
      simp at *
      omega
    simp [readRuns, empty, streamSlice]
  | cons run rest induction =>
    have run_valid := valid run (.head _)
    simp only [clusterMap_cons, List.length_append, Run.clusters_length, Nat.add_mul] at small room
    unfold readRuns
    rw [checkedMulU64, if_pos (by omega)]
    simp only
    rw [checkedAddU64, if_pos (by omega)]
    simp only
    by_cases empty : want_len = 0
    · simp [empty, streamSlice]
    rw [if_neg empty]
    have start_le := ahead empty
    have room' := room empty
    by_cases head : want_start < run_start + run.length_clusters * v.cluster_bytes
    · rw [if_pos head, if_neg (by omega)]
      generalize take_eq : min (run_start + run.length_clusters * v.cluster_bytes - want_start)
        want_len = take
      have head_read := @readRun_run v run (want_start - run_start) take state geometry run_valid (by omega)
      have tail_read := induction
        (run_start + run.length_clusters * v.cluster_bytes) (want_start + take) (want_len - take)
        (fun run member => valid run (.tail _ member)) (by omega) (by omega)
        (by omega)
      have joined : streamSlice v.cluster_bytes state.bytes (run.clusters ++ clusterMap rest)
          (want_start - run_start) want_len =
          streamSlice v.cluster_bytes state.bytes run.clusters (want_start - run_start) take ++
            streamSlice v.cluster_bytes state.bytes (clusterMap rest)
              (want_start + take - (run_start + run.length_clusters * v.cluster_bytes))
              (want_len - take) := by
        have total : want_len = take + (want_len - take) := by omega
        rw [total, streamSlice_add, streamSlice_append_left (by simp; omega), ← total]
        congr 1
        by_cases more : want_len - take = 0
        · simp [more, streamSlice]
        · have position : want_start - run_start + take =
              run.clusters.length * v.cluster_bytes +
                (want_start + take - (run_start + run.length_clusters * v.cluster_bytes)) := by
            simp only [Run.clusters_length]
            omega
          rw [position, streamSlice_append_right cluster_bytes_pos]
      simp only [Program.run_bind, head_read, tail_read, Option.map_some, Program.run_pure]
      rw [clusterMap_cons, joined]
    · rw [if_neg head, induction _ _ _ (fun run member => valid run (.tail _ member))
        (by omega) (by omega) (by omega), clusterMap_cons]
      have position : want_start - run_start = run.clusters.length * v.cluster_bytes +
          (want_start - (run_start + run.length_clusters * v.cluster_bytes)) := by
        simp only [Run.clusters_length]
        omega
      rw [position, streamSlice_append_right cluster_bytes_pos]

theorem readRun_keeps (run : Run) (byte_offset length : Nat) (state : VolumeState) :
    ((readRun v run byte_offset length).run (VolumeCall.succeed v) state).2 = state := by
  unfold readRun
  cases run.lcn with
  | none => rfl
  | some lcn => simp [readLcnBytes_run]

theorem readRun_congr {length : Nat} {state state' : VolumeState}
    (cluster_bytes_pos : 0 < v.cluster_bytes)
    (inside : byte_offset + length ≤ run.length_clusters * v.cluster_bytes)
    (same : ∀ address, some (address / v.cluster_bytes) ∈ run.clusters → state.bytes address = state'.bytes address) :
    answer v (readRun v run byte_offset length) state =
      answer v (readRun v run byte_offset length) state' := by
  unfold readRun answer
  cases located : run.lcn with
  | none => rfl
  | some lcn =>
    simp only [readLcnBytes_run]
    cases range : lcnByteRange v lcn byte_offset length with
    | none => rfl
    | some first_byte =>
      obtain ⟨rfl, -, -⟩ := lcnByteRange_eq_some range
      refine congrArg some (List.map_congr_left fun position member => ?_)
      rw [List.mem_range] at member
      exact same _ (div_mem_clusters cluster_bytes_pos located (by omega) (by omega))

theorem readRuns_congr (cluster_bytes_pos : 0 < v.cluster_bytes) (runs : List Run)
    (run_start want_start want_len : Nat) {state state' : VolumeState}
    (same : ∀ address, some (address / v.cluster_bytes) ∈ clusterMap runs →
      state.bytes address = state'.bytes address) :
    answer v (readRuns v runs run_start want_start want_len) state =
      answer v (readRuns v runs run_start want_start want_len) state' := by
  induction runs generalizing run_start want_start want_len with
  | nil => rfl
  | cons run rest induction =>
    have rest_same := fun run_start want_start want_len =>
      induction run_start want_start want_len fun address member =>
        same address (List.mem_append_right _ member)
    unfold readRuns
    split
    · rfl
    rename_i run_bytes run_bytes_eq
    obtain ⟨-, rfl⟩ := checkedMulU64_eq_some.mp run_bytes_eq
    split
    · rfl
    rename_i run_end run_end_eq
    obtain ⟨-, rfl⟩ := checkedAddU64_eq_some.mp run_end_eq
    split
    · rfl
    split
    · split
      · rfl
      · have head := @readRun_congr v run (want_start - run_start)
          (min (run_start + run.length_clusters * v.cluster_bytes - want_start) want_len) _ _
          cluster_bytes_pos (by omega) fun address member =>
            same address (List.mem_append_left _ member)
        have next := rest_same (run_start + run.length_clusters * v.cluster_bytes)
        simp only [answer] at head next
        simp only [answer, Program.run_bind, readRun_keeps, head]
        split
        · rfl
        · simp [Program.run_bind, Program.run_pure, next]
    · exact rest_same _ _ _

end

end R4OS.Ntfs
