import R4OS.Ntfs.StreamIo

/-!
# Allocation of clusters

The allocator plans free runs, marks them in the bitmap and reports them.  What it reports was free
before, is used afterwards, covers the requested number of clusters and no cluster twice.
-/

namespace R4OS.Ntfs

open Crash Text

section

variable {v : Volume}

variable {state before after : VolumeState} {start : Nat} {run : Run}

/-- Used clusters stay used, and those that are not owned keep their bytes. -/
structure ClustersKept (v : Volume) (own : Nat → Prop) (before after : VolumeState) : Prop where
  used : ∀ cluster, before.cluster_used cluster = true → after.cluster_used cluster = true
  bytes : ∀ address, before.cluster_used (address / v.cluster_bytes) = true →
    ¬own (address / v.cluster_bytes) → after.bytes address = before.bytes address

theorem ClustersKept.refl {own : Nat → Prop} :
    ClustersKept v own state state :=
  ⟨fun _ used => used, fun _ _ _ => rfl⟩

theorem ClustersKept.trans {own own' : Nat → Prop} {before during after : VolumeState}
    (first : ClustersKept v own before during) (second : ClustersKept v own' during after)
    (owned : ∀ cluster, own' cluster → before.cluster_used cluster = true → own cluster) :
    ClustersKept v own before after where
  used cluster used := second.used cluster (first.used cluster used)
  bytes address used foreign :=
    (second.bytes address (first.used _ used) fun member => foreign (owned _ member used)).trans
      (first.bytes address used foreign)

theorem ClustersKept.weaken {own own' : Nat → Prop} (kept : ClustersKept v own before after)
    (owned : ∀ cluster, own cluster → before.cluster_used cluster = true → own' cluster) :
    ClustersKept v own' before after :=
  ⟨kept.used, fun address used foreign =>
    kept.bytes address used fun member => foreign (owned _ member used)⟩

structure RecordsSame (before after : VolumeState) : Prop where
  records : after.records = before.records
  record_count : after.record_count = before.record_count
  record_used : after.record_used = before.record_used

theorem RecordsSame.refl : RecordsSame state state := ⟨rfl, rfl, rfl⟩

theorem RecordsSame.trans {during after : VolumeState} (first : RecordsSame before during)
    (second : RecordsSame during after) : RecordsSame before after :=
  ⟨second.records.trans first.records, second.record_count.trans first.record_count,
    second.record_used.trans first.record_used⟩

theorem Written.clustersKept {cluster_bytes : Nat} {map : List (Option Nat)} {data : Bytes} (v : Volume) (sized : v.cluster_bytes = cluster_bytes)
    (written : Written cluster_bytes map start data before after) :
    ClustersKept v (some · ∈ map) before after where
  used cluster used := by
    rw [written.frame]
    exact used
  bytes address _ foreign := written.outside address (sized ▸ foreign)

theorem Written.recordsSame {cluster_bytes : Nat} {map : List (Option Nat)} {data : Bytes} (written : Written cluster_bytes map start data before after) :
    RecordsSame before after := by
  rw [written.frame]
  exact ⟨rfl, rfl, rfl⟩

variable (bits : Nat → Bool)

theorem setRange_append (first count count' : Nat) (set : Bool) :
    setRange (setRange bits first count set) (first + count) count' set =
      setRange bits first (count + count') set := by
  funext index
  simp only [setRange]
  split_ifs <;> first | rfl | omega

theorem setBitmapSectors_returns (set : Bool) (rounds cluster last : Nat) (before : VolumeState)
    (enough : last ≤ cluster + rounds) :
    Returns v (fun succeeded after => succeeded = true → after = { before with
        cluster_used := setRange before.cluster_used cluster (last - cluster) set })
      (setBitmapSectors set rounds cluster last) before := by
  induction rounds generalizing cluster before with
  | zero =>
    refine .pure fun _ => ?_
    have unchanged : setRange before.cluster_used cluster (last - cluster) set =
        before.cluster_used := by
      funext index
      rw [setRange, if_neg (by omega)]
    rw [unchanged]
  | succ rounds induction =>
    unfold setBitmapSectors
    split
    · rename_i more
      generalize next_eq : min last ((cluster / 8 / SECTOR_SIZE + 1) * SECTOR_SIZE * 8) = next
      have advance : cluster < next := by
        have := Nat.div_add_mod (cluster / 8) SECTOR_SIZE
        have := Nat.div_add_mod cluster 8
        simp only [SECTOR_SIZE] at *
        omega
      refine .require (.perform ⟨fun _ => ?_, by simp [VolumeCall.succeed]⟩ ?_)
      · refine (induction next _ (by omega)).mono fun result after patched ok => ?_
        rw [patched ok]
        simp only [VolumeCall.succeed]
        have joined := setRange_append before.cluster_used cluster (next - cluster) (last - next) set
        rw [show cluster + (next - cluster) = next by omega,
          show next - cluster + (last - next) = last - cluster by omega] at joined
        rw [joined]
      · rintro answer after ⟨rfl, -⟩
        exact ⟨by simp, fun _ => .pure (by simp)⟩
    · refine .pure fun _ => ?_
      have unchanged : setRange before.cluster_used cluster (last - cluster) set =
          before.cluster_used := by
        funext index
        rw [setRange, if_neg (by omega)]
      rw [unchanged]

theorem setBitmapRange_returns (lcn count : Nat) (set : Bool) (before : VolumeState) :
    Returns v (fun succeeded after => succeeded = true → after = { before with
        cluster_used := setRange before.cluster_used lcn count set })
      (setBitmapRange v lcn count set) before := by
  unfold setBitmapRange
  split
  · rename_i empty
    refine .pure fun _ => ?_
    have unchanged : setRange before.cluster_used lcn count set = before.cluster_used := by
      funext index
      rw [setRange, if_neg (by omega)]
    rw [unchanged]
  split
  · exact .pure (by simp)
  split
  · exact .pure (by simp)
  · refine (setBitmapSectors_returns set count lcn (lcn + count) before (by omega)).mono ?_
    intro succeeded after patched ok
    rw [patched ok, Nat.add_sub_cancel_left]

/-- A run of free clusters between two bounds. -/
structure FreeRun (state : VolumeState) (lower upper : Nat) (run : Run) : Prop where
  located : ∃ lcn, run.lcn = some lcn
  nonempty : run.length_clusters ≠ 0
  inside : ∀ cluster, some cluster ∈ run.clusters → lower ≤ cluster ∧ cluster < upper
  free : ∀ cluster, some cluster ∈ run.clusters → state.cluster_used cluster = false

/-- A search fails, or finds a run for which something holds. -/
def FindFreeRunResult.Found (held : Run → Prop) : FindFreeRunResult → Prop
  | .failed status => status ≠ .ok
  | .found run => held run

theorem findFreeRunFrom_returns {max_len total : Nat} (rounds cluster : Nat)
    (run_start : Option Nat) (run_len : Nat) (before : VolumeState)
    (room : rounds ≠ 0 → cluster + rounds ≤ total) (reached : run_len ≠ 0 → cluster ≤ total)
    (short : run_len < max_len) (ahead : start ≤ cluster) (fresh : run_start = none → run_len = 0)
    (begun : ∀ lcn, run_start = some lcn → start ≤ lcn ∧ lcn + run_len = cluster ∧
      ∀ cluster', lcn ≤ cluster' → cluster' < cluster → before.cluster_used cluster' = false) :
    Returns v (fun result after => after = before ∧ result.Found fun run =>
        FreeRun before start total run ∧ run.length_clusters ≤ max_len)
      (findFreeRunFrom max_len rounds cluster run_start run_len) before := by
  have finished : ∀ (run_start : Option Nat) (run_len cluster : Nat), run_len ≤ max_len →
      (run_len ≠ 0 → cluster ≤ total) →
      (∀ lcn, run_start = some lcn → start ≤ lcn ∧ lcn + run_len = cluster ∧
        ∀ cluster', lcn ≤ cluster' → cluster' < cluster → before.cluster_used cluster' = false) →
      (FindFreeRunResult.finish run_start run_len).Found fun run =>
        FreeRun before start total run ∧ run.length_clusters ≤ max_len := by
    intro run_start run_len cluster short reached begun
    cases run_start with
    | none => exact nofun
    | some lcn =>
      by_cases empty : run_len = 0
      · simp [FindFreeRunResult.finish, FindFreeRunResult.Found, empty]
      · obtain ⟨lower, upper, free⟩ := begun lcn rfl
        have upper_le := reached empty
        simp only [FindFreeRunResult.finish, empty, if_false]
        refine ⟨⟨⟨lcn, rfl⟩, empty, ?_, ?_⟩, short⟩
        · intro cluster' member
          obtain ⟨_, ⟨⟩, above, below⟩ := Run.mem_clusters.mp member
          simp only at below
          omega
        · intro cluster' member
          obtain ⟨_, ⟨⟩, above, below⟩ := Run.mem_clusters.mp member
          exact free cluster' above (by simp only at below; omega)
  induction rounds generalizing cluster run_start run_len with
  | zero => exact .pure ⟨rfl, finished _ _ _ (by omega) reached begun⟩
  | succ rounds induction =>
    have room' := room (by omega)
    unfold findFreeRunFrom
    refine .seq (?_ : Returns v (fun bit after => after = before ∧
      ∀ set, bit = some set → set = before.cluster_used cluster) _ _) ?_
    · refine .perform ⟨rfl, ?_⟩ ?_
      · rintro set ⟨⟩
        rfl
      · rintro answer after ⟨rfl, rfl⟩
        exact ⟨rfl, by simp⟩
    rintro bit after ⟨rfl, bit_eq⟩
    cases bit with
    | none => exact .pure ⟨rfl, nofun⟩
    | some set =>
      have set_eq := bit_eq set rfl
      cases set with
      | false =>
        have extended : ∀ lcn, some (run_start.getD cluster) = some lcn → start ≤ lcn ∧
            lcn + (run_len + 1) = cluster + 1 ∧ ∀ cluster', lcn ≤ cluster' →
              cluster' < cluster + 1 → after.cluster_used cluster' = false := by
          rintro lcn ⟨⟩
          cases run_start with
          | none =>
            have empty := fresh rfl
            refine ⟨ahead, by simp [empty], fun cluster' above below => ?_⟩
            obtain rfl : cluster' = cluster := by
              simp only [Option.getD_none] at above
              omega
            exact set_eq.symm
          | some lcn =>
            obtain ⟨lower, upper, free⟩ := begun lcn rfl
            refine ⟨lower, by simp only [Option.getD_some]; omega,
              fun cluster' above below => ?_⟩
            by_cases last : cluster' = cluster
            · rw [last]
              exact set_eq.symm
            · exact free cluster' above (by omega)
        simp only
        split
        · rename_i full
          exact .pure ⟨rfl, finished _ _ _ (by omega) (fun _ => by omega) extended⟩
        · exact induction _ _ _ (by omega) (by omega) (by omega) (by omega) (by simp) extended
      | true =>
        simp only
        split
        · exact .pure ⟨rfl, finished _ _ _ (by omega) reached begun⟩
        · rename_i none_yet
          have none_yet : run_start = none := by simpa using none_yet
          have empty := fresh none_yet
          exact induction _ _ _ (by omega) (by omega) (by omega) (by omega)
            (fun _ => empty) (by simp)

theorem findFreeRun_returns {total max_len : Nat} (before : VolumeState) (wanted : max_len ≠ 0) :
    Returns v (fun result after => after = before ∧ result.Found fun run =>
        FreeRun before start total run ∧ run.length_clusters ≤ max_len)
      (findFreeRun total start max_len) before :=
  findFreeRunFrom_returns _ _ _ _ _ (by omega) (by simp) (by omega) .refl (by simp)
    (by simp)

/-- Runs of free clusters without overlap. -/
structure Planned (state : VolumeState) (runs : List Run) : Prop where
  located : ∀ run ∈ runs, ∃ lcn, run.lcn = some lcn
  once : MappedOnce (clusterMap runs)
  free : ∀ cluster, some cluster ∈ clusterMap runs → state.cluster_used cluster = false

theorem Planned.foreign {runs : List Run} {own : Nat → Prop} (planned : Planned state runs) :
    ∀ cluster, some cluster ∈ clusterMap runs → state.cluster_used cluster = true →
      own cluster := by
  intro cluster member used
  rw [planned.free cluster member] at used
  cases used

theorem Run.mappedOnce : MappedOnce run.clusters := by
  unfold MappedOnce mappedClusters Run.clusters
  rw [List.filterMap_map]
  cases run.lcn with
  | none => simp
  | some lcn =>
    refine List.Nodup.filterMap ?_ List.nodup_range
    intro index index' cluster member member'
    simp only [Option.map_some, Function.comp_apply, id_eq, Option.mem_def,
      Option.some.injEq] at member member'
    omega

theorem Planned.add {runs : List Run} {lower upper : Nat}
    (planned : Planned state runs) (found : FreeRun state lower upper run)
    (apart : ∀ cluster, some cluster ∈ clusterMap runs → cluster < lower ∨ upper ≤ cluster) :
    Planned state (runs ++ [run]) where
  located run' member := by
    rcases List.mem_append.mp member with member | member
    · exact planned.located run' member
    · obtain rfl := List.mem_singleton.mp member
      exact found.located
  once := by
    rw [clusterMap_append, clusterMap_cons, clusterMap_nil, List.append_nil, mappedOnce_append]
    refine ⟨planned.once, Run.mappedOnce, fun cluster member member' => ?_⟩
    have := apart cluster member
    have := found.inside cluster member'
    omega
  free cluster member := by
    rw [clusterMap_append, clusterMap_cons, clusterMap_nil, List.append_nil,
      List.mem_append] at member
    exact member.elim (planned.free cluster) (found.free cluster)

/-- An allocation fails, or produces runs for which something holds. -/
def AllocationResult.Produced (held : List Run → Prop) : AllocationResult → Prop
  | .failed status => status ≠ .ok
  | .produced runs => held runs

/-- Runs for a number of clusters. -/
structure PlannedFor (state : VolumeState) (capacity count : Nat) (runs : List Run) : Prop
    extends Planned state runs where
  length : (clusterMap runs).length = count
  few : runs.length ≤ capacity

theorem planRuns_returns {capacity first : Nat} (rounds needed start last : Nat) (wrapped : Bool)
    (out : List Run) (before : VolumeState) (planned : Planned before out)
    (apart : ∀ cluster, some cluster ∈ clusterMap out → cluster < start ∨ last ≤ cluster)
    (unwrapped : wrapped = false → ∀ cluster, some cluster ∈ clusterMap out → first ≤ cluster)
    (forward : wrapped = false → first ≤ start) (short : out.length ≤ capacity) :
    Returns v (fun result after => after = before ∧
        result.Produced (PlannedFor before capacity ((clusterMap out).length + needed)))
      (planRuns capacity first rounds needed start last wrapped out) before := by
  induction rounds generalizing needed start last wrapped out with
  | zero => exact .pure ⟨rfl, nofun⟩
  | succ rounds induction =>
    unfold planRuns
    split
    · rename_i enough
      exact .pure ⟨rfl, planned, by omega, short⟩
    split
    · exact .pure ⟨rfl, nofun⟩
    rename_i more full
    refine (findFreeRun_returns before more).seq ?_
    rintro result after ⟨rfl, finding⟩
    cases result with
    | failed status =>
      simp only
      split
      · rename_i retry
        refine induction _ _ _ _ _ planned (fun cluster member => ?_) (by simp) (by simp) short
        exact .inr (unwrapped retry.2 cluster member)
      · exact .pure ⟨rfl, finding⟩
    | found run =>
      obtain ⟨found, short⟩ := finding
      obtain ⟨lcn, located⟩ := found.located
      have inside : start ≤ lcn ∧ lcn + run.length_clusters ≤ last := by
        have low := found.inside lcn (Run.mem_clusters.mpr
          ⟨lcn, located, .refl, by have := found.nonempty; omega⟩)
        have high := found.inside (lcn + run.length_clusters - 1) (Run.mem_clusters.mpr
          ⟨lcn, located, by have := found.nonempty; omega, by have := found.nonempty; omega⟩)
        omega
      simp only [located, Option.getD_some]
      refine (induction _ _ _ _ _ (planned.add found apart) (fun cluster member => ?_)
        (fun not_wrapped cluster member => ?_) (fun not_wrapped => ?_) ?_).mono ?_
      · rw [clusterMap_append, List.mem_append] at member
        rcases member with member | member
        · have := apart cluster member
          omega
        · rw [clusterMap_cons, clusterMap_nil, List.append_nil] at member
          obtain ⟨_, located', -, below⟩ := Run.mem_clusters.mp member
          rw [located] at located'
          cases located'
          exact .inl below
      · rw [clusterMap_append, List.mem_append] at member
        rcases member with member | member
        · exact unwrapped not_wrapped cluster member
        · rw [clusterMap_cons, clusterMap_nil, List.append_nil] at member
          have := found.inside cluster member
          have := forward not_wrapped
          omega
      · have := forward not_wrapped
        omega
      · rw [List.length_append, List.length_singleton]
        omega
      · rintro result after ⟨rfl, producing⟩
        rw [clusterMap_append, List.length_append, clusterMap_cons, clusterMap_nil,
          List.append_nil, Run.clusters_length, Nat.add_assoc,
          Nat.add_sub_cancel' short] at producing
        exact ⟨rfl, producing⟩

theorem planClusters_returns (capacity total start count : Nat) (before : VolumeState) :
    Returns v (fun result after => after = before ∧
        result.Produced (PlannedFor before capacity count))
      (planClusters capacity total start count) before := by
  have empty : Planned before [] := ⟨by simp, by simp [MappedOnce, mappedClusters], by simp⟩
  refine (planRuns_returns _ _ _ _ _ _ before empty (by simp) (by simp) (by simp)
    (Nat.zero_le _)).mono ?_
  rintro result after ⟨rfl, producing⟩
  exact ⟨rfl, by simpa using producing⟩

theorem planFromHint_returns (capacity total start count : Nat) (before : VolumeState) :
    Returns v (fun result after => after = before ∧
        result.Produced (PlannedFor before capacity count))
      (planFromHint capacity total start count) before := by
  refine (planClusters_returns capacity total start count before).seq ?_
  rintro planned after ⟨rfl, planning⟩
  split
  · split
    · exact planClusters_returns _ _ _ _ _
    · exact .pure ⟨rfl, nofun⟩
  · exact .pure ⟨rfl, planning⟩

/-- Mark further clusters as used. -/
def markUsed (bits : Nat → Bool) (map : List (Option Nat)) : Nat → Bool := fun cluster =>
  bits cluster || decide (some cluster ∈ map)

theorem setRange_eq_markUsed {lcn : Nat} (bits : Nat → Bool) (located : run.lcn = some lcn) :
    setRange bits lcn run.length_clusters true = markUsed bits run.clusters := by
  funext cluster
  have member : some cluster ∈ run.clusters ↔
      lcn ≤ cluster ∧ cluster < lcn + run.length_clusters := by
    simp [Run.mem_clusters, located]
  unfold setRange markUsed
  split <;> simp_all

theorem markUsed_append (map map' : List (Option Nat)) :
    markUsed (markUsed bits map) map' = markUsed bits (map ++ map') := by
  funext cluster
  simp [markUsed, Bool.or_assoc]

@[simp] theorem markUsed_nil : markUsed bits [] = bits := by
  funext cluster
  simp [markUsed]

theorem markRuns_returns (marked runs : List Run) (before : VolumeState)
    (located : ∀ run ∈ runs, ∃ lcn, run.lcn = some lcn) :
    Returns v (fun result after => (∀ status, result = some status → status ≠ .ok) ∧
      (result = none → after = { before with
        cluster_used := markUsed before.cluster_used (clusterMap runs) }))
      (markRuns v marked runs) before := by
  induction runs generalizing marked before with
  | nil => exact .pure ⟨by simp, fun _ => by simp⟩
  | cons run rest induction =>
    obtain ⟨lcn, run_located⟩ := located run (.head _)
    unfold markRuns
    refine (setBitmapRange_returns _ _ _ _).seq fun succeeded during patched => ?_
    cases succeeded with
    | true =>
      obtain rfl := patched rfl
      refine (induction _ _ fun run member => located run (.tail _ member)).mono
        fun result after => ?_
      rintro ⟨failing, marking⟩
      refine ⟨failing, fun ok => ?_⟩
      rw [marking ok]
      simp only [run_located, Option.getD_some]
      rw [setRange_eq_markUsed _ run_located, markUsed_append, clusterMap_cons]
    | false =>
      refine (Returns.trivial _).seq fun rolled_back after _ => ?_
      refine Returns.pure ⟨fun status failed => ?_, by simp⟩
      cases rolled_back <;> cases failed <;> simp

/-- A successful allocation. -/
structure Allocated (count : Nat) (runs : List Run) (before after : VolumeState) : Prop where
  planned : Planned before runs
  length : (clusterMap runs).length = count
  marked : after.cluster_used = markUsed before.cluster_used (clusterMap runs)
  frame : after = { before with
    cluster_used := after.cluster_used, scratch := after.scratch }

theorem setScratch_returns (scratch : Scratch) (before : VolumeState) :
    Returns v (fun _ after => after = { before with scratch := scratch })
      (VolumeCall.setScratch scratch).perform before :=
  Returns.perform rfl fun _ _ failed => failed.elim

theorem readScratch_returns (before : VolumeState) :
    Returns v (fun scratch after => after = before ∧ scratch = before.scratch)
      VolumeCall.readScratch.perform before :=
  Returns.perform ⟨rfl, rfl⟩ fun _ _ failed => failed.elim

theorem setClusterSearchStart_returns (next : Nat → Nat) (before : VolumeState) :
    Returns v (fun _ after => after = { before with scratch := after.scratch })
      (setClusterSearchStart next) before := by
  refine (readScratch_returns before).seq ?_
  rintro scratch during ⟨rfl, -⟩
  refine (setScratch_returns _ _).mono fun _ after changed => ?_
  rw [changed]

theorem collectBitmap_returns (before : VolumeState) :
    Returns v (fun _ after => after = before) VolumeCall.collectBitmap.perform before :=
  Returns.perform rfl fun _ _ failed => failed.2

/-- A reported allocation is one, and a reported failure is no success. -/
theorem allocateClusters_returns (count capacity : Nat) (before : VolumeState) :
    Returns v (fun result after => result.Produced fun runs =>
        Allocated count runs before after ∧ runs.length ≤ capacity)
      (allocateClusters v count capacity) before := by
  unfold allocateClusters
  refine (collectBitmap_returns before).guards (fun _ => .pure nofun) ?_
  rintro after rfl
  split
  · rename_i empty
    exact .pure ⟨⟨⟨by simp, by simp [MappedOnce, mappedClusters], by simp⟩, by simp [empty],
      by simp, rfl⟩, Nat.zero_le _⟩
  refine (readScratch_returns after).seq ?_
  rintro scratch during ⟨rfl, -⟩
  refine (planFromHint_returns _ _ _ _ _).seq ?_
  rintro result after ⟨rfl, producing⟩
  cases result with
  | failed status => exact .pure producing
  | produced runs =>
    obtain ⟨planned, length, few⟩ := producing
    refine (markRuns_returns _ _ _ planned.located).seq ?_
    rintro status during ⟨failing, marking⟩
    cases status with
    | some status => exact .pure (failing status rfl)
    | none =>
      obtain rfl := marking rfl
      refine (setClusterSearchStart_returns _ _).seq fun _ finished changed => ?_
      rw [changed]
      exact .pure ⟨⟨planned, length, rfl, rfl⟩, few⟩

end

end R4OS.Ntfs
