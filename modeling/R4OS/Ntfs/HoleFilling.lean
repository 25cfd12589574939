import R4OS.Ntfs.ClusterAllocation
import R4OS.Ntfs.FileWrite

/-!
# Zeroing and filling holes

Zeroing a range of a stream changes that range of the stream and nothing else.  Filling holes maps
them to zeroed clusters that were free, so that the stream reads as before.
-/

namespace R4OS.Ntfs

open Crash Text

section

variable {v : Volume}

variable {map : List (Option Nat)} {first last capacity count : Nat} {before after : VolumeState}
  {run : Run} {runs out : List Run}

/-- A range of a stream that was set to zero, and nothing else. -/
structure Zeroed (cluster_bytes : Nat) (map : List (Option Nat)) (first last : Nat)
    (before after : VolumeState) : Prop where
  frame : after = { before with bytes := after.bytes }
  outside : ∀ address, some (address / cluster_bytes) ∉ map →
    after.bytes address = before.bytes address
  inside : ∀ position, streamByte cluster_bytes after.bytes map position =
    if first ≤ position ∧ position < last then 0
    else streamByte cluster_bytes before.bytes map position

theorem Zeroed.clustersKept (zeroed : Zeroed v.cluster_bytes map first last before after) :
    ClustersKept v (some · ∈ map) before after where
  used cluster used := by
    rw [zeroed.frame]
    exact used
  bytes address _ foreign := zeroed.outside address foreign

variable {cluster_bytes : Nat}

theorem Zeroed.recordsSame (zeroed : Zeroed cluster_bytes map first last before after) :
    RecordsSame before after := by
  rw [zeroed.frame]
  exact ⟨rfl, rfl, rfl⟩

theorem Zeroed.of_zero {state : VolumeState}
    (zero : ∀ position, first ≤ position → position < last → streamByte cluster_bytes state.bytes map position = 0) :
    Zeroed cluster_bytes map first last state state where
  frame := rfl
  outside _ _ := rfl
  inside position := by
    split
    · rename_i range
      exact zero position range.1 range.2
    · rfl

theorem Zeroed.append {map map' : List (Option Nat)} {first last : Nat}
    {before during after : VolumeState} (cluster_bytes_pos : 0 < cluster_bytes)
    (disjoint : ∀ cluster, some cluster ∈ map → some cluster ∉ map')
    (head : Zeroed cluster_bytes map first last before during)
    (tail : Zeroed cluster_bytes map' (first - map.length * cluster_bytes) (last - map.length * cluster_bytes) during after) :
    Zeroed cluster_bytes (map ++ map') first last before after where
  frame := by
    rw [tail.frame, head.frame]
  outside address unmapped := by
    rw [List.mem_append, not_or] at unmapped
    exact (tail.outside address unmapped.2).trans (head.outside address unmapped.1)
  inside position := by
    by_cases inside : position < map.length * cluster_bytes
    · have kept := @streamByte_congr _ after.bytes during.bytes map
        cluster_bytes_pos (fun address member => tail.outside address (disjoint _ member)) position
      rw [streamByte_append_left inside, streamByte_append_left inside, kept, head.inside]
    · obtain ⟨rest, rfl⟩ := Nat.exists_eq_add_of_le (Nat.le_of_not_lt inside)
      have kept := @streamByte_congr _ during.bytes before.bytes map'
        cluster_bytes_pos
        (fun address member => head.outside address fun member' => disjoint _ member' member) rest
      rw [streamByte_append_right cluster_bytes_pos, streamByte_append_right cluster_bytes_pos,
        tail.inside, kept]
      have range : (first - map.length * cluster_bytes ≤ rest ∧
          rest < last - map.length * cluster_bytes) ↔
          (first ≤ map.length * cluster_bytes + rest ∧
            map.length * cluster_bytes + rest < last) := by omega
      simp only [range]

theorem writeLcnBytes_returns (lcn byte_offset : Nat) (data : Bytes) (before : VolumeState) :
    Returns v (fun succeeded after => succeeded = true → after = { before with
        bytes := overwrite before.bytes (lcn * v.cluster_bytes + byte_offset) data })
      (writeLcnBytes v lcn byte_offset data) before := by
  refine (writeLcnBytesProgress_returns _ _ _ _).seq fun result after wrote => ?_
  refine .pure fun succeeded => wrote ?_
  cases result with
  | error completed => cases succeeded
  | ok _ => rfl

theorem overwrite_replicate (bytes : Nat → UInt8) (offset length address : Nat) :
    overwrite bytes offset (List.replicate length 0) address =
      if offset ≤ address ∧ address < offset + length then 0 else bytes address := by
  unfold overwrite
  simp only [List.length_replicate]
  split
  · rw [List.getD_eq_getElem?_getD, List.getElem?_replicate]
    split <;> rfl
  · rfl

theorem zeroLcnRange_returns {chunk lcn : Nat} (chunk_pos : 0 < chunk) (rounds pos stop : Nat)
    (before : VolumeState) (enough : stop ≤ pos + rounds) :
    Returns v (fun succeeded after => succeeded = true → after = { before with
        bytes := overwrite before.bytes (lcn * v.cluster_bytes + pos)
          (List.replicate (stop - pos) 0) })
      (zeroLcnRange v chunk lcn rounds pos stop) before := by
  induction rounds generalizing pos before with
  | zero =>
    refine .pure fun _ => ?_
    rw [show stop - pos = 0 by omega, List.replicate_zero, overwrite_nil]
  | succ rounds induction =>
    unfold zeroLcnRange
    split
    · rename_i more
      refine (writeLcnBytes_returns _ _ _ _).guards
        (fun _ => .pure (by simp)) fun during wrote => ?_
      obtain rfl := wrote rfl
      refine (induction _ _ (by omega)).mono fun succeeded after zeroed ok => ?_
      rw [zeroed ok]
      congr 1
      funext address
      simp only [overwrite_replicate]
      split_ifs <;> first | rfl | omega
    · refine .pure fun _ => ?_
      rw [show stop - pos = 0 by omega, List.replicate_zero, overwrite_nil]

theorem Zeroed.of_overwrite {lcn first last : Nat} {run : Run} {before : VolumeState}
    (cluster_bytes_pos : 0 < cluster_bytes) (located : run.lcn = some lcn)
    (inside : last ≤ run.length_clusters * cluster_bytes) :
    Zeroed cluster_bytes run.clusters first last before { before with
      bytes := overwrite before.bytes (lcn * cluster_bytes + first)
        (List.replicate (last - first) 0) } where
  frame := rfl
  outside address unmapped := by
    refine overwrite_outside ?_
    rw [List.length_replicate]
    by_contra within
    exact unmapped (div_mem_clusters cluster_bytes_pos located (by omega) (by omega))
  inside position := by
    by_cases within : position < run.length_clusters * cluster_bytes
    · rw [streamByte_run located within, streamByte_run located within]
      simp only [overwrite_replicate]
      split_ifs <;> first | rfl | omega
    · have behind : run.clusters.length * cluster_bytes ≤ position := by
        rw [Run.clusters_length]
        omega
      rw [streamByte_behind cluster_bytes_pos behind, streamByte_behind cluster_bytes_pos behind]
      simp

theorem zeroRunClusters_returns (cluster_bytes_pos : 0 < v.cluster_bytes) (before : VolumeState) :
    Returns v (fun succeeded after => succeeded = true →
      Zeroed v.cluster_bytes run.clusters 0 (run.length_clusters * v.cluster_bytes) before after)
      (zeroRunClusters v run) before := by
  unfold zeroRunClusters
  split
  · rename_i hole
    exact .pure fun _ => Zeroed.of_zero fun position _ _ => streamByte_hole hole
  · rename_i lcn located
    split
    · split
      · exact .pure (by simp)
      · rename_i total total_eq
        obtain ⟨-, rfl⟩ := checkedMulU64_eq_some.mp total_eq
        refine (zeroLcnRange_returns (by decide) _ _ _ _ (by omega)).mono fun _ after zeroed ok => ?_
        rw [zeroed ok]
        exact Zeroed.of_overwrite cluster_bytes_pos located .refl
    · exact .pure (by simp)

theorem zeroMappedRuns_returns (cluster_bytes_pos : 0 < v.cluster_bytes)
    (range_start range_end : Nat) (runs : List Run) (run_start : Nat) (before : VolumeState)
    (once : MappedOnce (clusterMap runs)) :
    Returns v (fun succeeded after => succeeded = true →
      Zeroed v.cluster_bytes (clusterMap runs) (range_start - run_start) (range_end - run_start)
        before after)
      (zeroMappedRuns v range_start range_end runs run_start) before := by
  induction runs generalizing run_start before with
  | nil => exact .pure fun _ => Zeroed.of_zero fun _ _ _ => by simp [streamByte]
  | cons run rest induction =>
    rw [clusterMap_cons, mappedOnce_append] at once
    obtain ⟨-, rest_once, disjoint⟩ := once
    unfold zeroMappedRuns
    split
    · exact .pure (by simp)
    rename_i run_end run_end_eq
    obtain ⟨run_bytes, run_bytes_eq, run_end_eq⟩ := Option.bind_eq_some_iff.mp run_end_eq
    obtain ⟨-, rfl⟩ := checkedMulU64_eq_some.mp run_bytes_eq
    obtain ⟨-, rfl⟩ := checkedAddU64_eq_some.mp run_end_eq
    split
    · exact .pure fun _ => Zeroed.of_zero (by omega)
    rename_i reached
    have tail : ∀ during, Zeroed v.cluster_bytes run.clusters (range_start - run_start)
          (range_end - run_start) before during →
        Returns v (fun succeeded after => succeeded = true →
          Zeroed v.cluster_bytes (run.clusters ++ clusterMap rest) (range_start - run_start)
            (range_end - run_start) before after)
          (zeroMappedRuns v range_start range_end rest
            (run_start + run.length_clusters * v.cluster_bytes)) during := by
      intro during head
      refine (induction _ _ rest_once).mono fun _ after zeroed ok => ?_
      have zeroed := zeroed ok
      rw [← Nat.sub_sub, ← Nat.sub_sub, ← run.clusters_length] at zeroed
      exact head.append cluster_bytes_pos disjoint zeroed
    split
    · rename_i hole
      exact tail before (Zeroed.of_zero fun position _ _ => streamByte_hole hole)
    · rename_i lcn located
      split
      · rename_i overlap
        refine .require ((zeroLcnRange_returns (by decide) _ _ _ _ (by omega)).mono ?_)
        intro succeeded during zeroed
        refine ⟨fun ok => tail during ?_, fun _ => .pure (by simp)⟩
        rw [zeroed ok]
        have zeroed := @Zeroed.of_overwrite _ _ (max run_start range_start - run_start)
          (min (run_start + run.length_clusters * v.cluster_bytes) range_end - run_start) run before
          cluster_bytes_pos located (by omega)
        refine ⟨zeroed.frame, zeroed.outside, fun position => ?_⟩
        rw [zeroed.inside]
        by_cases within : position < run.length_clusters * v.cluster_bytes
        · have range : (max run_start range_start - run_start ≤ position ∧ position <
              min (run_start + run.length_clusters * v.cluster_bytes) range_end - run_start) ↔
              (range_start - run_start ≤ position ∧ position < range_end - run_start) := by omega
          simp only [range]
        · have behind : run.clusters.length * v.cluster_bytes ≤ position := by
            rw [Run.clusters_length]
            omega
          rw [streamByte_behind cluster_bytes_pos behind]
          simp
      · rename_i ahead
        refine tail before (Zeroed.of_zero fun position lower _ => ?_)
        refine streamByte_behind cluster_bytes_pos ?_
        rw [Run.clusters_length]
        omega

theorem zeroMappedRange_returns (cluster_bytes_pos : 0 < v.cluster_bytes)
    {range_start range_end : Nat} (once : MappedOnce (clusterMap runs)) :
    Returns v (fun succeeded after => succeeded = true →
      Zeroed v.cluster_bytes (clusterMap runs) range_start range_end before after)
      (zeroMappedRange v runs range_start range_end) before := by
  unfold zeroMappedRange
  split
  · exact .pure fun _ => Zeroed.of_zero (by omega)
  split
  · exact zeroMappedRuns_returns cluster_bytes_pos _ _ _ 0 _ once
  · exact .pure (by simp)

theorem Run.clusters_join {run' : Run}
    (adjacent : run'.lcn = run.lcn.map (· + run.length_clusters)) :
    ({ run with length_clusters := run.length_clusters + run'.length_clusters } : Run).clusters =
      run.clusters ++ run'.clusters := by
  simp only [Run.clusters, List.range_add, List.map_append, List.map_map, adjacent]
  congr 1
  refine List.map_congr_left fun index _ => ?_
  cases run.lcn with
  | none => rfl
  | some lcn => simp [Nat.add_assoc]

theorem clusterMap_join {last : Run} (ends : runs.getLast? = some last)
    (adjacent : run.lcn = last.lcn.map (· + last.length_clusters)) :
    clusterMap (runs.dropLast ++
        [{ last with length_clusters := last.length_clusters + run.length_clusters }]) =
      clusterMap runs ++ run.clusters := by
  obtain ⟨front, rfl⟩ := List.getLast?_eq_some_iff.mp ends
  simp [Run.clusters_join adjacent]

theorem length_join {last : Run} (ends : runs.getLast? = some last) (run : Run) :
    (runs.dropLast ++ [run]).length = runs.length := by
  obtain ⟨front, rfl⟩ := List.getLast?_eq_some_iff.mp ends
  simp

theorem pushRun_eq_some {out' : List Run} (pushed : pushRun out run = some out') :
    clusterMap out' = clusterMap out ++ run.clusters ∧
      (out.length ≤ MAX_ATTR_RUNS → out'.length ≤ MAX_ATTR_RUNS) := by
  have separate : ∀ out' : List Run,
      (if out.length < MAX_ATTR_RUNS then some (out ++ [run]) else none) = some out' →
      clusterMap out' = clusterMap out ++ run.clusters ∧
        (out.length ≤ MAX_ATTR_RUNS → out'.length ≤ MAX_ATTR_RUNS) := by
    intro out' appended
    split at appended
    · cases appended
      refine ⟨by simp, fun _ => ?_⟩
      rw [List.length_append, List.length_singleton]
      omega
    · cases appended
  have join : ∀ last, out.getLast? = some last →
      run.lcn = last.lcn.map (· + last.length_clusters) →
      (do
        let length ← checkedAddU64 last.length_clusters run.length_clusters
        return out.dropLast ++ [{ last with length_clusters := length }]) = some out' →
      clusterMap out' = clusterMap out ++ run.clusters ∧
        (out.length ≤ MAX_ATTR_RUNS → out'.length ≤ MAX_ATTR_RUNS) := by
    intro last ends adjacent joined
    obtain ⟨length, length_eq, joined⟩ := Option.bind_eq_some_iff.mp joined
    obtain ⟨-, rfl⟩ := checkedAddU64_eq_some.mp length_eq
    cases joined
    exact ⟨clusterMap_join ends adjacent, fun short => by rwa [length_join ends]⟩
  unfold pushRun at pushed
  split at pushed
  · rename_i empty
    cases pushed
    exact ⟨by simp [Run.clusters, empty], id⟩
  simp only at pushed
  split at pushed
  · exact separate _ pushed
  rename_i last ends
  split at pushed
  · rename_i last_hole hole
    exact join last ends (by rw [hole, last_hole]; rfl) pushed
  · rename_i last_lcn lcn last_located located
    obtain ⟨last_end, last_end_eq, pushed⟩ := Option.bind_eq_some_iff.mp pushed
    obtain ⟨-, rfl⟩ := checkedAddU64_eq_some.mp last_end_eq
    split at pushed
    · rename_i adjacent
      exact join last ends (by rw [located, last_located, ← adjacent]; rfl) pushed
    · exact separate _ pushed
  · exact separate _ pushed

theorem appendRun_eq_ok (appended : appendRun capacity runs run = .ok out) :
    clusterMap out = clusterMap runs ++ run.clusters ∧
      (runs.length ≤ capacity → out.length ≤ capacity) := by
  have separate : (if runs.length < capacity then Except.ok (runs ++ [run])
        else Except.error WriteStatus.record_full) = .ok out →
      clusterMap out = clusterMap runs ++ run.clusters ∧
        (runs.length ≤ capacity → out.length ≤ capacity) := by
    intro appended
    split at appended
    · cases appended
      refine ⟨by simp, fun _ => ?_⟩
      rw [List.length_append, List.length_singleton]
      omega
    · cases appended
  unfold appendRun at appended
  simp only at appended
  split at appended
  · rename_i last lcn ends located
    split at appended
    · exact separate appended
    · rename_i last_lcn last_located
      split at appended
      · cases appended
      · rename_i last_end last_end_eq
        obtain ⟨-, rfl⟩ := checkedAddU64_eq_some.mp last_end_eq
        split at appended
        · rename_i adjacent
          split at appended
          · cases appended
          · rename_i length length_eq
            obtain ⟨-, rfl⟩ := checkedAddU64_eq_some.mp length_eq
            cases appended
            refine ⟨clusterMap_join ends ?_, fun short => by rwa [length_join ends]⟩
            rw [located, last_located, ← adjacent]
            rfl
        · exact separate appended
  · exact separate appended

theorem appendRuns_eq_ok {new_runs : List Run}
    (appended : appendRuns capacity runs new_runs = .ok out) :
    clusterMap out = clusterMap runs ++ clusterMap new_runs ∧
      (runs.length ≤ capacity → out.length ≤ capacity) := by
  induction new_runs generalizing runs with
  | nil =>
    cases appended
    exact ⟨by simp, id⟩
  | cons run rest induction =>
    cases head : appendRun capacity runs run with
    | error status =>
      simp only [appendRuns, List.foldlM_cons, head] at appended
      cases appended
    | ok middle =>
      have rest_appended : appendRuns capacity middle rest = .ok out := by
        simp only [appendRuns, List.foldlM_cons, head] at appended
        exact appended
      obtain ⟨middle_eq, middle_short⟩ := appendRun_eq_ok head
      obtain ⟨out_eq, out_short⟩ := induction rest_appended
      refine ⟨by rw [out_eq, middle_eq, clusterMap_cons, List.append_assoc],
        fun short => out_short (middle_short short)⟩

theorem appendRun_ne_error_ok {run : Run} :
    appendRun capacity runs run ≠ .error .ok := by
  unfold appendRun
  simp only
  split
  · split
    · split <;> simp
    · split
      · simp
      · split
        · split <;> simp
        · split <;> simp
  · split <;> simp

theorem appendRuns_ne_error_ok {new_runs : List Run} :
    appendRuns capacity runs new_runs ≠ .error .ok := by
  induction new_runs generalizing runs with
  | nil => simp [appendRuns, pure, Except.pure]
  | cons run rest induction =>
    cases head : appendRun capacity runs run with
    | error status =>
      have := @appendRun_ne_error_ok capacity runs run
      simp only [appendRuns, List.foldlM_cons, head]
      rintro ⟨⟩
      exact this head
    | ok middle =>
      simp only [appendRuns, List.foldlM_cons, head]
      exact induction

/-- One cluster of a map before and after filling: kept, or a hole that became a zeroed cluster
that was free. -/
def FilledCluster (v : Volume) (before after : VolumeState) (cluster cluster' : Option Nat) :
    Prop :=
  cluster' = cluster ∨ cluster = none ∧ ∃ lcn, cluster' = some lcn ∧
    before.cluster_used lcn = false ∧ after.cluster_used lcn = true ∧
    ∀ address, address / v.cluster_bytes = lcn → after.bytes address = 0

/-- A map whose holes were filled in part. -/
structure Filled (v : Volume) (map map' : List (Option Nat)) (before after : VolumeState) :
    Prop where
  clusters : List.Forall₂ (FilledCluster v before after) map map'
  once : MappedOnce map'
  kept : ClustersKept v (fun _ => False) before after
  records : RecordsSame before after

theorem Filled.of_kept (once : MappedOnce map) (kept : ClustersKept v (fun _ => False) before after)
    (records : RecordsSame before after) : Filled v map map before after where
  clusters := List.forall₂_same.2 fun _ _ => .inl rfl
  once := once
  kept := kept
  records := records

variable {map' : List (Option Nat)}

theorem Filled.mem {cluster : Nat} (filled : Filled v map map' before after)
    (member : some cluster ∈ map') :
    some cluster ∈ map ∨
      before.cluster_used cluster = false ∧ after.cluster_used cluster = true := by
  obtain ⟨clusters, -, -, -⟩ := filled
  induction clusters with
  | nil => simp at member
  | cons one _ induction =>
    rcases List.mem_cons.mp member with rfl | member
    · rcases one with same | ⟨-, lcn, located, free, used, -⟩
      · exact .inl (by simp [same])
      · cases located
        exact .inr ⟨free, used⟩
    · exact (induction member).imp_left (.tail _)

theorem Filled.append {rest rest' : List (Option Nat)} {before during after : VolumeState}
    (first : Filled v map map' before during) (second : Filled v rest rest' during after)
    (once : MappedOnce (map ++ rest))
    (used : ∀ cluster, some cluster ∈ map ++ rest → before.cluster_used cluster = true) :
    Filled v (map ++ rest) (map' ++ rest') before after where
  clusters := by
    refine List.rel_append (first.clusters.imp fun cluster cluster' filled => ?_)
      (second.clusters.imp fun cluster cluster' filled => ?_)
    · refine filled.imp_right ?_
      rintro ⟨hole, lcn, located, free, marked, zero⟩
      refine ⟨hole, lcn, located, free, second.kept.used _ marked, fun address inside => ?_⟩
      rw [second.kept.bytes address (by rw [inside]; exact marked) id, zero address inside]
    · refine filled.imp_right ?_
      rintro ⟨hole, lcn, located, free, marked, zero⟩
      refine ⟨hole, lcn, located, ?_, marked, zero⟩
      by_contra taken
      rw [Bool.not_eq_false] at taken
      rw [first.kept.used _ taken] at free
      cases free
  once := by
    refine mappedOnce_append.2 ⟨first.once, second.once, fun cluster member member' => ?_⟩
    have apart := (mappedOnce_append.mp once).2.2 cluster
    rcases first.mem member with old | ⟨free, marked⟩ <;>
      rcases second.mem member' with old' | ⟨free', marked'⟩
    · exact apart old old'
    · have := first.kept.used _ (used cluster (List.mem_append_left _ old))
      simp_all
    · have := used cluster (List.mem_append_right _ old')
      simp_all
    · simp_all
  kept := first.kept.trans second.kept fun _ owned _ => owned
  records := first.records.trans second.records

theorem Filled.streamByte (filled : Filled v map map' before after)
    (cluster_bytes_pos : 0 < v.cluster_bytes)
    (used : ∀ cluster, some cluster ∈ map → before.cluster_used cluster = true) (position : Nat) :
    streamByte v.cluster_bytes after.bytes map' position =
      streamByte v.cluster_bytes before.bytes map position := by
  have within : position % v.cluster_bytes < v.cluster_bytes := Nat.mod_lt _ cluster_bytes_pos
  have address (lcn : Nat) :
      (lcn * v.cluster_bytes + position % v.cluster_bytes) / v.cluster_bytes = lcn := by
    rw [Nat.mul_comm, Nat.mul_add_div cluster_bytes_pos, Nat.div_eq_of_lt within, Nat.add_zero]
  have length := filled.clusters.length_eq
  unfold Ntfs.streamByte
  by_cases index : position / v.cluster_bytes < map.length
  · have one := filled.clusters.get index (by omega)
    rw [List.getElem?_eq_getElem index, List.getElem?_eq_getElem (by omega)]
    simp only [List.get_eq_getElem] at one
    have member := List.getElem_mem index
    generalize map[position / v.cluster_bytes] = cluster at one member
    generalize map'[position / v.cluster_bytes] = cluster' at one
    rcases one with rfl | ⟨rfl, lcn, rfl, -, -, zero⟩
    · cases cluster' with
      | none => rfl
      | some lcn =>
        exact filled.kept.bytes _ (by rw [address]; exact used lcn member) id
    · exact zero _ (address lcn)
  · rw [List.getElem?_eq_none (by omega), List.getElem?_eq_none (by omega)]

theorem clusterMap_length (runs : List Run) :
    (clusterMap runs).length = (runs.map (·.length_clusters)).sum := by
  induction runs with
  | nil => rfl
  | cons run rest induction => simp [induction]

/-- A step of the construction fails, or leaves its runs longer by a map that is made. -/
def Extends (fill : HoleFill) (made : List (Option Nat) → Prop) : HoleFillResult → Prop
  | .failed status _ => status ≠ .ok
  | .filled fill' => fill'.out.length ≤ MAX_ATTR_RUNS ∧
      ∃ map', clusterMap fill'.out = clusterMap fill.out ++ map' ∧ made map'

theorem pushFresh_returns (cluster_bytes_pos : 0 < v.cluster_bytes) (new_runs : List Run)
    (fill : HoleFill) (before : VolumeState) (once : MappedOnce (clusterMap new_runs))
    (short : fill.out.length ≤ MAX_ATTR_RUNS) :
    Returns v (fun result after => Extends fill (fun map' => clusterMap new_runs = map' ∧
        Zeroed v.cluster_bytes (clusterMap new_runs) 0
          ((clusterMap new_runs).length * v.cluster_bytes) before after) result)
      (pushFresh v new_runs fill) before := by
  induction new_runs generalizing fill before with
  | nil => exact .pure ⟨short, [], by simp, rfl, Zeroed.of_zero (by simp)⟩
  | cons run rest induction =>
    rw [clusterMap_cons, mappedOnce_append] at once
    obtain ⟨-, rest_once, disjoint⟩ := once
    unfold pushFresh
    refine (zeroRunClusters_returns cluster_bytes_pos before).seq ?_
    intro succeeded during zeroed
    cases succeeded with
    | false => exact .pure nofun
    | true =>
      simp only [if_true]
      split
      · exact .pure nofun
      · rename_i out pushed
        obtain ⟨out_eq, out_short⟩ := pushRun_eq_some pushed
        refine (induction _ _ rest_once (out_short short)).mono ?_
        rintro (fill' | _) after extended
        swap
        · exact extended
        obtain ⟨out'_short, _, out'_eq, rfl, rest_zeroed⟩ := extended
        refine ⟨out'_short, _, by rw [out'_eq, out_eq, List.append_assoc], clusterMap_cons _ _, ?_⟩
        rw [clusterMap_cons]
        refine @Zeroed.append _ _ _ _ _ _ during _ cluster_bytes_pos disjoint ?_ ?_
        · have zeroed := zeroed rfl
          refine ⟨zeroed.frame, zeroed.outside, fun position => ?_⟩
          rw [zeroed.inside]
          simp only [List.length_append, Run.clusters_length, Nat.add_mul,
            Nat.zero_le, true_and]
          split_ifs with inside inside' inside'
          · rfl
          · omega
          · exact streamByte_behind cluster_bytes_pos (by rw [Run.clusters_length]; omega)
          · rfl
        · simpa [Nat.add_mul] using rest_zeroed

section

variable (allocated : Allocated count runs before after)

include allocated

theorem Allocated.recordsSame : RecordsSame before after := by
  rw [allocated.frame]
  exact ⟨rfl, rfl, rfl⟩

theorem Allocated.bytes : after.bytes = before.bytes := by
  rw [allocated.frame]

theorem Allocated.clustersKept (own : Nat → Prop) :
    ClustersKept v own before after where
  used cluster used := by
    rw [allocated.marked, markUsed, used, Bool.true_or]
  bytes address _ _ := by
    rw [allocated.bytes]

theorem Allocated.used {cluster : Nat} (member : some cluster ∈ clusterMap runs) :
    after.cluster_used cluster = true := by
  rw [allocated.marked]
  simp [markUsed, member]

end

theorem Planned.all_located {state : VolumeState} {cluster : Option Nat}
    (planned : Planned state runs) (member : cluster ∈ clusterMap runs) :
    ∃ lcn, cluster = some lcn := by
  obtain ⟨run, run_member, member⟩ := List.mem_flatMap.mp member
  obtain ⟨lcn, located⟩ := planned.located run run_member
  simp only [Run.clusters, located, List.mem_map] at member
  obtain ⟨index, -, rfl⟩ := member
  exact ⟨lcn + index, rfl⟩

theorem Allocated.filled {need : Nat} {during : VolumeState}
    (cluster_bytes_pos : 0 < v.cluster_bytes) (allocated : Allocated need runs before during)
    (zeroed : Zeroed v.cluster_bytes (clusterMap runs) 0
      ((clusterMap runs).length * v.cluster_bytes) during after) :
    Filled v (List.replicate need none) (clusterMap runs) before after where
  clusters := by
    refine List.forall₂_iff_get.2 ⟨by simp [allocated.length], fun index inside inside' => ?_⟩
    obtain ⟨lcn, located⟩ := allocated.planned.all_located (List.get_mem _ ⟨index, inside'⟩)
    have member : some lcn ∈ clusterMap runs := located ▸ List.get_mem _ ⟨index, inside'⟩
    refine .inr ⟨by simp, lcn, located, allocated.planned.free _ member, ?_, ?_⟩
    · rw [zeroed.frame]
      exact allocated.used member
    · intro address inside
      have zero := zeroed.inside (index * v.cluster_bytes + address % v.cluster_bytes)
      have within : address % v.cluster_bytes < v.cluster_bytes := Nat.mod_lt _ cluster_bytes_pos
      have reached : index * v.cluster_bytes + address % v.cluster_bytes <
          (clusterMap runs).length * v.cluster_bytes := by
        have := Nat.mul_le_mul_right v.cluster_bytes (Nat.succ_le_of_lt inside')
        rw [Nat.succ_mul] at this
        omega
      rw [if_pos ⟨Nat.zero_le _, reached⟩] at zero
      have quotient : (index * v.cluster_bytes + address % v.cluster_bytes) / v.cluster_bytes =
          index := by
        rw [Nat.mul_comm, Nat.mul_add_div cluster_bytes_pos, Nat.div_eq_of_lt within, Nat.add_zero]
      have remainder : (index * v.cluster_bytes + address % v.cluster_bytes) % v.cluster_bytes =
          address % v.cluster_bytes := by
        rw [Nat.mul_comm, Nat.mul_add_mod, Nat.mod_eq_of_lt within]
      rw [List.get_eq_getElem] at located
      simp only [Ntfs.streamByte, quotient, remainder, List.getElem?_eq_getElem inside',
        located] at zero
      rw [← zero, ← inside, Nat.mul_comm, Nat.div_add_mod]
  once := allocated.planned.once
  kept := (allocated.clustersKept fun _ => False).trans zeroed.clustersKept
    allocated.planned.foreign
  records := allocated.recordsSame.trans zeroed.recordsSame

theorem fillHole_returns (cluster_bytes_pos : 0 < v.cluster_bytes) (rounds need : Nat)
    (fill : HoleFill) (before : VolumeState) (begun : need ≤ rounds)
    (short : fill.out.length ≤ MAX_ATTR_RUNS) :
    Returns v (fun result after =>
        Extends fill (Filled v (List.replicate need none) · before after) result)
      (fillHole v rounds need fill) before := by
  have nothing : Extends fill (Filled v (List.replicate 0 none) · before before) (.filled fill) :=
    ⟨short, [], by simp, .of_kept (by simp [MappedOnce, mappedClusters]) .refl .refl⟩
  cases rounds with
  | zero =>
    obtain rfl : need = 0 := by omega
    exact .pure nothing
  | succ rounds =>
    unfold fillHole
    split
    · rename_i empty
      subst empty
      exact .pure nothing
    split
    · exact .pure (by simp [Extends])
    refine (allocateClusters_returns _ _ _).seq ?_
    intro result during producing
    cases result with
    | failed status => exact .pure producing
    | produced new_runs =>
      have allocated := producing.1
      refine (pushFresh_returns cluster_bytes_pos _ _ _ allocated.planned.once short).seq ?_
      intro result after pushed
      cases result with
      | failed status fresh => exact .pure pushed
      | filled fill' =>
        obtain ⟨out_short, _, out_eq, rfl, zeroed⟩ := pushed
        have done : need - (new_runs.map (·.length_clusters)).sum = 0 := by
          rw [← clusterMap_length, allocated.length, Nat.sub_self]
        simp only [done]
        have finished : fillHole v rounds 0 fill' = return .filled fill' := by
          cases rounds <;> rfl
        rw [finished]
        exact .pure ⟨out_short, _, out_eq, allocated.filled cluster_bytes_pos zeroed⟩

theorem Run.clusters_hole (hole : run.lcn = none) :
    run.clusters = List.replicate run.length_clusters none := by
  simp [Run.clusters, hole]

theorem fillRuns_returns (cluster_bytes_pos : 0 < v.cluster_bytes) {first_vcn last_vcn : Nat}
    (ordered : first_vcn ≤ last_vcn) (runs : List Run) (vcn : Nat) (fill : HoleFill)
    (before : VolumeState) (nonempty : ∀ run ∈ runs, run.length_clusters ≠ 0)
    (once : MappedOnce (clusterMap runs))
    (used : ∀ cluster, some cluster ∈ clusterMap runs → before.cluster_used cluster = true)
    (short : fill.out.length ≤ MAX_ATTR_RUNS) :
    Returns v (fun result after => Extends fill (Filled v (clusterMap runs) · before after) result)
      (fillRuns v first_vcn last_vcn runs vcn fill) before := by
  induction runs generalizing vcn fill before with
  | nil => exact .pure ⟨short, [], by simp, .of_kept once .refl .refl⟩
  | cons run rest induction =>
    rw [clusterMap_cons] at once used
    have rest_nonempty : ∀ run ∈ rest, run.length_clusters ≠ 0 := fun run member =>
      nonempty run (.tail _ member)
    have rest_used : ∀ cluster, some cluster ∈ clusterMap rest →
        before.cluster_used cluster = true := fun cluster member =>
      used cluster (List.mem_append_right _ member)
    have rest_once := (mappedOnce_append.mp once).2.1
    have next : ∀ (out : List Run) (fresh : List Run) (run_end : Nat) (head : List (Option Nat))
        (during : VolumeState), out.length ≤ MAX_ATTR_RUNS →
        clusterMap out = clusterMap fill.out ++ head → Filled v run.clusters head before during →
        Returns v (fun result after =>
            Extends fill (Filled v (run.clusters ++ clusterMap rest) · before after) result)
          (fillRuns v first_vcn last_vcn rest run_end ⟨out, fresh⟩) during := by
      intro out fresh run_end head during out_short out_eq head_filled
      refine (induction _ _ _ rest_nonempty rest_once (fun cluster member =>
        head_filled.kept.used _ (rest_used cluster member)) out_short).mono ?_
      rintro (fill' | _) after extended
      swap
      · exact extended
      obtain ⟨out'_short, map', out'_eq, rest_filled⟩ := extended
      refine ⟨out'_short, head ++ map', ?_, head_filled.append rest_filled once used⟩
      rw [out'_eq, out_eq, List.append_assoc]
    unfold fillRuns
    split
    · exact .pure nofun
    rename_i run_end run_end_eq
    obtain ⟨-, rfl⟩ := checkedAddU64_eq_some.mp run_end_eq
    split
    · split
      · exact .pure nofun
      · rename_i out pushed
        obtain ⟨out_eq, out_short⟩ := pushRun_eq_some pushed
        exact next out _ _ _ _ (out_short short) out_eq
          (.of_kept (mappedOnce_append.mp once).1 .refl .refl)
    · rename_i overlaps
      simp only [not_or, not_not] at overlaps
      obtain ⟨hole, after_first, before_last⟩ := overlaps
      have run_nonempty := nonempty run (.head _)
      simp only
      split
      · exact .pure nofun
      rename_i out pushed
      obtain ⟨out_eq, out_short⟩ := pushRun_eq_some pushed
      refine (fillHole_returns cluster_bytes_pos _ _ _ _ .refl (out_short short)).seq ?_
      intro result during filling
      cases result with
      | failed status fresh => exact .pure filling
      | filled fill' =>
        obtain ⟨fill'_short, middle, fill'_eq, middle_filled⟩ := filling
        simp only
        split
        · exact .pure nofun
        rename_i out' pushed'
        obtain ⟨out'_eq, out'_short⟩ := pushRun_eq_some pushed'
        have holes (count : Nat) (state : VolumeState) :
            Filled v (List.replicate count none) (List.replicate count none) state state :=
          .of_kept (by simp [MappedOnce, mappedClusters]) .refl .refl
        have none_used (count : Nat) (state : VolumeState) : ∀ cluster,
            some cluster ∈ List.replicate count (none : Option Nat) →
              state.cluster_used cluster = true := by simp
        have once_holes (count : Nat) : MappedOnce (List.replicate count (none : Option Nat)) := by
          simp [MappedOnce, mappedClusters]
        refine next out' _ _ (List.replicate (max vcn first_vcn - vcn) none ++ (middle ++
          List.replicate (vcn + run.length_clusters - 1 -
            min (vcn + run.length_clusters - 1) last_vcn) none)) _ (out'_short fill'_short) ?_ ?_
        · rw [out'_eq, fill'_eq, out_eq, Run.clusters_hole rfl, Run.clusters_hole rfl]
          simp only [List.append_assoc]
        · have split_run : run.clusters = List.replicate (max vcn first_vcn - vcn) none ++
              (List.replicate (min (vcn + run.length_clusters - 1) last_vcn -
                max vcn first_vcn + 1) none ++
              List.replicate (vcn + run.length_clusters - 1 -
                min (vcn + run.length_clusters - 1) last_vcn) none) := by
            rw [Run.clusters_hole hole, List.replicate_append_replicate,
              List.replicate_append_replicate]
            congr 1
            omega
          rw [split_run]
          refine (holes _ before).append (middle_filled.append (holes _ during) ?_ ?_) ?_ ?_
          all_goals simp only [List.replicate_append_replicate]
          · exact once_holes _
          · exact none_used _ _
          · exact once_holes _
          · exact none_used _ _

/-- Filled runs keep the stream, map no cluster twice and take only free clusters. -/
theorem fillHolesInRuns_returns (cluster_bytes_pos : 0 < v.cluster_bytes)
    {offset length : Nat} (once : MappedOnce (clusterMap runs))
    (used : ∀ cluster, some cluster ∈ clusterMap runs → before.cluster_used cluster = true)
    (short : runs.length ≤ MAX_ATTR_RUNS) :
    Returns v (fun result after => (∀ status, result = .failed status → status ≠ .ok) ∧
      ∀ runs', result = .runs runs' → runs'.length ≤ MAX_ATTR_RUNS ∧
        Filled v (clusterMap runs) (clusterMap runs') before after)
      (fillHolesInRuns v runs offset length) before := by
  unfold fillHolesInRuns
  split
  · refine .pure ⟨by simp, ?_⟩
    rintro _ ⟨⟩
    exact ⟨short, .of_kept once .refl .refl⟩
  split
  · exact .pure ⟨by rintro _ ⟨⟩; simp, by simp⟩
  rename_i nonempty invalid
  have nonempty_runs : ∀ run ∈ runs, run.length_clusters ≠ 0 := by
    rw [Bool.not_eq_false, runlistPhysicalRangeValid, Bool.and_eq_true] at invalid
    intro run member
    have valid := mappedRunPhysicalRangeValid_of_clusters invalid.2 run member
    simp only [mappedRunPhysicalRangeValid, Bool.and_eq_true, decide_eq_true_eq] at valid
    exact valid.1.1
  split
  · exact .pure ⟨by rintro _ ⟨⟩; simp, by simp⟩
  rename_i range_end range_end_eq
  obtain ⟨-, rfl⟩ := checkedAddU64_eq_some.mp range_end_eq
  have ordered : offset / v.cluster_bytes ≤ (offset + length - 1) / v.cluster_bytes :=
    Nat.div_le_div_right (by omega)
  refine (fillRuns_returns cluster_bytes_pos ordered runs 0 ⟨[], []⟩ before nonempty_runs once used
    (by simp)).seq ?_
  intro result after filling
  cases result with
  | failed status fresh =>
    have failing : status ≠ .ok := filling
    simp only
    split
    · exact .pure ⟨by rintro _ ⟨⟩; exact failing, by simp⟩
    · refine .require ((Returns.trivial _).mono fun _ _ _ => ⟨fun _ => ?_, fun _ => ?_⟩)
      · exact Returns.pure ⟨by rintro _ ⟨⟩; exact failing, by simp⟩
      · exact Returns.pure ⟨by rintro _ ⟨⟩; simp, by simp⟩
  | filled fill =>
    obtain ⟨out_short, map', out_eq, filled⟩ := filling
    rw [clusterMap_nil, List.nil_append] at out_eq
    subst out_eq
    refine .pure ⟨by simp, ?_⟩
    rintro _ ⟨⟩
    split
    · exact ⟨short, .of_kept once filled.kept filled.records⟩
    · exact ⟨out_short, filled⟩

end

end R4OS.Ntfs
