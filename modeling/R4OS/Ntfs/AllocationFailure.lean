import R4OS.Ntfs.ClusterAllocation

/-!
# Allocations that fail

An allocator that reports that there is no space has seen every free cluster.  Whatever it reports
beside a failed clean-up, an allocation that fails leaves the bitmap as it was.
-/

namespace R4OS.Ntfs

open Crash Text

section Searches

variable {v : Volume} {First : Type} {before : VolumeState}

theorem Returns.and {post post' : First → VolumeState → Prop} {program : VolumeProgram First}
    (first : Returns v post program before) (second : Returns v post' program before) :
    Returns v (fun result after => post result after ∧ post' result after) program before := by
  induction program generalizing before with
  | done result => exact ⟨True.intro, first.2, second.2⟩
  | call operation next induction =>
    exact ⟨True.intro, fun answer after transition =>
      induction answer (first.2 answer after transition) (second.2 answer after transition)⟩

/-- All clusters from a place to another are used. -/
def UsedBetween (state : VolumeState) (start stop : Nat) : Prop :=
  ∀ cluster, start ≤ cluster → cluster < stop → state.cluster_used cluster = true

/-- A search skips only used clusters between two places. -/
def Skips (state : VolumeState) (start stop : Nat) : FindFreeRunResult → Prop
  | .failed status => status = .no_space → UsedBetween state start stop
  | .found run => UsedBetween state start (run.lcn.getD 0)

theorem finish_skips {start run_len : Nat} {run_start : Option Nat} (cluster stop : Nat)
    (fresh : run_len = 0 → run_start = none)
    (skipped : UsedBetween before start (run_start.getD cluster)) (reached : run_start = none → stop ≤ cluster) :
    Skips before start stop (.finish run_start run_len) := by
  cases run_start with
  | none => exact fun _ other low high => skipped other low (high.trans_le (reached rfl))
  | some lcn =>
    rw [FindFreeRunResult.finish, if_neg fun empty => by cases fresh empty]
    exact skipped

theorem findFreeRunFrom_skips {max_len start : Nat} (rounds cluster : Nat)
    (run_start : Option Nat) (run_len : Nat) (fresh : run_len = 0 → run_start = none)
    (skipped : UsedBetween before start (run_start.getD cluster)) :
    Returns v (fun result _ => Skips before start (cluster + rounds) result)
      (findFreeRunFrom max_len rounds cluster run_start run_len) before := by
  induction rounds generalizing cluster run_start run_len with
  | zero => exact .pure (finish_skips cluster _ fresh skipped fun _ => le_rfl)
  | succ rounds induction =>
    unfold findFreeRunFrom
    refine .seq (?_ : Returns v (fun bit after => after = before ∧
      ∀ set, bit = some set → set = before.cluster_used cluster) _ _) ?_
    · refine .perform ⟨rfl, ?_⟩ ?_
      · rintro set ⟨⟩
        rfl
      · rintro answer after ⟨rfl, rfl⟩
        exact ⟨rfl, by simp⟩
    rintro bit after ⟨rfl, bit_eq⟩
    have later := induction (cluster + 1)
    rw [show cluster + 1 + rounds = cluster + (rounds + 1) by omega] at later
    obtain - | _ | _ := bit
    · exact .pure (by simp [Skips])
    · have longer : run_len + 1 = 0 → some (run_start.getD cluster) = none :=
        fun empty => absurd empty (Nat.succ_ne_zero _)
      dsimp only
      split
      · exact .pure (finish_skips cluster _ longer skipped (by simp))
      · exact later _ _ longer skipped
    · have used := bit_eq true rfl
      dsimp only
      cases run_start with
      | some lcn => exact .pure (finish_skips cluster _ fresh skipped (by simp))
      | none =>
        refine later none run_len (fun _ => rfl) fun other low high => ?_
        rcases Nat.lt_succ_iff_lt_or_eq.mp high with earlier | rfl
        · exact skipped other low earlier
        · exact used.symm

def freeClusterCount (total : Nat) (state : VolumeState) : Nat :=
  ((List.range total).filter fun cluster => !state.cluster_used cluster).length

theorem freeClusterCount_le {total : Nat} {map : List (Option Nat)}
    (covered : ∀ cluster < total, before.cluster_used cluster = false → some cluster ∈ map) :
    freeClusterCount total before ≤ map.length := by
  have distinct : (((List.range total).filter fun cluster =>
      !before.cluster_used cluster).map some).Nodup :=
    (List.nodup_range.filter _).map (Option.some_injective Nat)
  rw [freeClusterCount, ← List.length_map some]
  refine (distinct.subperm fun cluster member => ?_).length_le
  obtain ⟨number, listed, rfl⟩ := List.mem_map.mp member
  rw [List.mem_filter, List.mem_range, Bool.not_eq_true'] at listed
  exact covered number listed.1 listed.2

/-- There is no space only for want of free clusters, and runs are inside the volume. -/
def Sweeps (state : VolumeState) (total count : Nat) : AllocationResult → Prop
  | .failed status => status = .no_space → freeClusterCount total state < count
  | .produced runs => ∀ cluster, some cluster ∈ clusterMap runs → cluster < total

theorem planRuns_sweeps {capacity first total : Nat} (rounds needed start last : Nat)
    (wrapped : Bool) (out : List Run) (bounded : last ≤ total) (first_le : first ≤ total)
    (inside : ∀ cluster, some cluster ∈ clusterMap out → cluster < total)
    (swept : ∀ cluster < total, before.cluster_used cluster = false →
      some cluster ∈ clusterMap out ∨ start ≤ cluster ∧ cluster < last ∨
        wrapped = false ∧ cluster < first) :
    Returns v (fun result _ => Sweeps before total ((clusterMap out).length + needed) result)
      (planRuns capacity first rounds needed start last wrapped out) before := by
  induction rounds generalizing needed start last wrapped out with
  | zero => exact .pure nofun
  | succ rounds induction =>
    unfold planRuns
    split
    · exact .pure inside
    split
    · exact .pure nofun
    rename_i more full
    refine ((findFreeRun_returns before more).and
      (findFreeRunFrom_skips (last - start) start none 0 (fun _ => rfl)
        fun other low high => absurd high (Nat.not_lt.mpr low))).seq ?_
    rintro result after ⟨⟨rfl, finding⟩, skipping⟩
    cases result with
    | failed status =>
      dsimp only
      have rest_used (no_space : status = .no_space) (cluster : Nat) (low : start ≤ cluster)
          (high : cluster < last) : after.cluster_used cluster = true :=
        skipping no_space cluster low (by omega)
      split
      · rename_i retry
        refine induction _ _ _ _ _ first_le inside fun cluster small free => ?_
        rcases swept cluster small free with listed | ⟨low, high⟩ | ⟨-, before⟩
        · exact .inl listed
        · rw [rest_used retry.1 cluster low high] at free
          cases free
        · exact .inr (.inl ⟨Nat.zero_le _, before⟩)
      · rename_i final
        refine .pure fun no_space => ?_
        refine (freeClusterCount_le fun cluster small free => ?_).trans_lt
          (Nat.lt_add_of_pos_right (Nat.pos_of_ne_zero more))
        rcases swept cluster small free with listed | ⟨low, high⟩ | ⟨unwrapped, -⟩
        · exact listed
        · rw [rest_used no_space cluster low high] at free
          cases free
        · exact absurd ⟨no_space, unwrapped⟩ final
    | found run =>
      obtain ⟨found, short⟩ := finding
      obtain ⟨lcn, located⟩ := found.located
      rw [Skips, located, Option.getD_some] at skipping
      dsimp only
      rw [located, Option.getD_some]
      have grown : clusterMap (out ++ [run]) = clusterMap out ++ run.clusters := by
        rw [clusterMap_append, clusterMap_cons, clusterMap_nil, List.append_nil]
      have length : (clusterMap (out ++ [run])).length + (needed - run.length_clusters) =
          (clusterMap out).length + needed := by
        rw [grown, List.length_append, Run.clusters_length]
        omega
      rw [← length]
      refine induction _ _ _ _ _ bounded (fun cluster member => ?_) fun cluster small free => ?_
      · rw [grown, List.mem_append] at member
        exact member.elim (inside cluster) fun member =>
          (found.inside cluster member).2.trans_le bounded
      · rw [grown, List.mem_append]
        rcases swept cluster small free with listed | ⟨low, high⟩ | before
        · exact .inl (.inl listed)
        · rcases Nat.lt_or_ge cluster lcn with early | late
          · rw [skipping cluster low early] at free
            cases free
          · rcases Nat.lt_or_ge cluster (lcn + run.length_clusters) with within | behind
            · exact .inl (.inr (Run.mem_clusters.mpr ⟨lcn, located, late, within⟩))
            · exact .inr (.inl ⟨behind, high⟩)
        · exact .inr (.inr before)

theorem planFromHint_sweeps {capacity total start count : Nat} (hint : start ≤ total) :
    Returns v (fun result _ => Sweeps before total count result)
      (planFromHint capacity total start count) before := by
  have plan (start : Nat) (hint : start ≤ total) := @planRuns_sweeps v before capacity start total
    (capacity + 2) count start total (start = 0) [] le_rfl hint nofun
    fun cluster small _ => by
      rcases Nat.lt_or_ge cluster start with early | late
      · exact .inr (.inr ⟨decide_eq_false (by omega), early⟩)
      · exact .inr (.inl ⟨late, small⟩)
  simp only [clusterMap_nil, List.length_nil, Nat.zero_add] at plan
  refine ((planClusters_returns capacity total start count before).and (plan start hint)).seq ?_
  rintro planned after ⟨⟨rfl, -⟩, sweeping⟩
  split
  · split
    · exact plan 0 (Nat.zero_le _)
    · exact .pure nofun
  · exact .pure sweeping

end Searches

section Rollbacks

variable {v : Volume} {start before : VolumeState}

theorem setBitmapSectors_frame (set : Bool) (rounds cluster last : Nat) :
    Returns v (fun _ after => ∃ bits, after = { before with cluster_used := bits } ∧
        ∀ other, other < cluster ∨ last ≤ other → bits other = before.cluster_used other)
      (setBitmapSectors set rounds cluster last) before := by
  induction rounds generalizing cluster before with
  | zero => exact .pure ⟨_, rfl, fun _ _ => rfl⟩
  | succ rounds induction =>
    unfold setBitmapSectors
    split
    · rename_i more
      dsimp only
      generalize next_eq : min last ((cluster / 8 / SECTOR_SIZE + 1) * SECTOR_SIZE * 8) = next
      have ahead : cluster ≤ next := by
        have := Nat.div_add_mod (cluster / 8) SECTOR_SIZE
        have := Nat.div_add_mod cluster 8
        simp only [SECTOR_SIZE] at *
        omega
      refine .require (.perform ⟨fun _ => ?_, fun failed => by cases failed⟩ ?_)
      · refine (induction next).mono ?_
        rintro _ after ⟨bits, rfl, kept⟩
        refine ⟨bits, rfl, fun other outside => (kept other (by omega)).trans (if_neg ?_)⟩
        omega
      · rintro answer after ⟨rfl, bits, rfl, kept⟩
        exact ⟨by simp, fun _ =>
          Returns.pure ⟨bits, rfl, fun other outside => kept other (by omega)⟩⟩
    · exact .pure ⟨_, rfl, fun _ _ => rfl⟩

/-- A state that differs from another in bits of a map only. -/
def SameBeside (map : List (Option Nat)) (start state : VolumeState) : Prop :=
  ∃ bits, state = { start with cluster_used := bits } ∧
    ∀ cluster, some cluster ∉ map → bits cluster = start.cluster_used cluster

/-- Clearing the bits of runs that were free takes a state back. -/
theorem rollbackClusterRanges_returns (runs : List Run)
    (free : ∀ cluster, some cluster ∈ clusterMap runs → start.cluster_used cluster = false)
    (same : SameBeside (clusterMap runs) start before) :
    Returns v (fun ok after => ok = true → after = start)
      (rollbackClusterRanges v runs) before := by
  induction runs generalizing before with
  | nil =>
    obtain ⟨bits, rfl, kept⟩ := same
    refine .pure fun _ => ?_
    rw [show bits = start.cluster_used from funext fun cluster => kept cluster nofun]
  | cons run rest induction =>
    rw [clusterMap_cons] at free same
    obtain ⟨bits, rfl, kept⟩ := same
    have finish (ok : Bool) (during : VolumeState)
        (back : ok = true → SameBeside (clusterMap rest) start during) :
        Returns v (fun ok after => ok = true → after = start)
          (do return (← rollbackClusterRanges v rest) && ok) during := by
      cases ok with
      | false => exact (Returns.trivial _).seq fun _ _ _ => Returns.pure (by simp)
      | true =>
        refine (induction (fun cluster member => free cluster (List.mem_append_right _ member))
          (back rfl)).seq fun rest_ok after taken_back => .pure fun both => taken_back ?_
        rwa [Bool.and_true] at both
    unfold rollbackClusterRanges
    cases located : run.lcn with
    | none =>
      refine finish true _ fun _ => ⟨bits, rfl, fun cluster other => kept cluster fun member => ?_⟩
      refine (List.mem_append.mp member).elim (fun member => ?_) other
      obtain ⟨lcn, here, -⟩ := Run.mem_clusters.mp member
      rw [located] at here
      cases here
    | some lcn =>
      have mem_run (cluster : Nat) : some cluster ∈ run.clusters ↔
          lcn ≤ cluster ∧ cluster < lcn + run.length_clusters := by
        simp [Run.mem_clusters, located]
      refine (setBitmapRange_returns _ _ _ _).seq fun ok during done =>
        finish ok _ fun succeeded => ?_
      rw [done succeeded]
      refine ⟨_, rfl, fun cluster other => ?_⟩
      rw [setRange]
      split
      · rename_i within
        exact (free cluster (List.mem_append_left _ ((mem_run cluster).mpr within))).symm
      · rename_i beside
        exact kept cluster fun member =>
          (List.mem_append.mp member).elim (fun here => beside ((mem_run cluster).mp here)) other

theorem markRuns_taken_back (marked runs : List Run)
    (located : ∀ run ∈ runs, ∃ lcn, run.lcn = some lcn)
    (free : ∀ cluster, some cluster ∈ clusterMap (marked ++ runs) →
      start.cluster_used cluster = false)
    (same : SameBeside (clusterMap marked) start before) :
    Returns v (fun result after => ∀ status, result = some status → status ≠ .cleanup_failed →
      status = .io ∧ after = start) (markRuns v marked runs) before := by
  induction runs generalizing marked before with
  | nil => exact .pure nofun
  | cons run rest induction =>
    obtain ⟨lcn, run_located⟩ := located run (.head _)
    have beside : Returns v (fun _ after => SameBeside (clusterMap (marked ++ [run])) start after)
        (setBitmapRange v (run.lcn.getD 0) run.length_clusters true) before := by
      obtain ⟨bits, rfl, kept⟩ := same
      rw [run_located, Option.getD_some, clusterMap_append, clusterMap_cons, clusterMap_nil,
        List.append_nil]
      have unchanged : SameBeside (clusterMap marked ++ run.clusters) start
          { start with cluster_used := bits } :=
        ⟨bits, rfl, fun cluster other =>
          kept cluster fun member => other (List.mem_append_left _ member)⟩
      unfold setBitmapRange
      split_ifs
      any_goals exact .pure unchanged
      refine (setBitmapSectors_frame _ _ _ _).mono ?_
      rintro _ after ⟨patched, rfl, same⟩
      refine ⟨patched, rfl, fun cluster other => ?_⟩
      rw [List.mem_append, not_or, Run.mem_clusters] at other
      refine (same cluster ?_).trans (kept cluster other.1)
      by_contra within
      exact other.2 ⟨lcn, run_located, by omega⟩
    unfold markRuns
    refine beside.seq fun succeeded during same => ?_
    cases succeeded with
    | true =>
      refine induction (marked ++ [run])
        (fun run member => located run (.tail _ member)) ?_ same
      rwa [List.append_assoc]
    | false =>
      have free_here (cluster : Nat) (member : some cluster ∈ clusterMap (marked ++ [run])) :
          start.cluster_used cluster = false := by
        refine free cluster ?_
        rw [← List.singleton_append, ← List.append_assoc, clusterMap_append]
        exact List.mem_append_left _ member
      refine (rollbackClusterRanges_returns _ free_here same).seq fun ok after back =>
        Returns.pure ?_
      rintro status ⟨⟩ clean
      cases ok with
      | true => exact ⟨rfl, back rfl⟩
      | false => exact absurd rfl clean

end Rollbacks

/-- What allocating a number of clusters comes to. -/
def Outcome (v : Volume) (count capacity : Nat) (before after : VolumeState) :
    AllocationResult → Prop
  | .produced runs => Allocated count runs before after ∧ runs.length ≤ capacity ∧
      ∀ cluster, some cluster ∈ clusterMap runs → cluster < v.totalClusters
  | .failed status => status ≠ .ok ∧
      (status = .no_space → freeClusterCount v.totalClusters before < count) ∧
      (status ≠ .cleanup_failed → after.cluster_used = before.cluster_used)

/-- Clusters are allocated as runs that were free and are marked, there is no space only when too
few clusters are free, and a failure beside a failed clean-up leaves the bitmap. -/
theorem allocateClusters_or_nothing (v : Volume) (count capacity : Nat) (before : VolumeState) :
    Returns v (fun result after => Outcome v count capacity before after result)
      (allocateClusters v count capacity) before := by
  have rest : Returns v (fun result after => Sweeps before v.totalClusters count result ∧
      ∀ status, result = .failed status → status ≠ .cleanup_failed →
        after.cluster_used = before.cluster_used)
      (allocateClusters v count capacity) before := by
    unfold allocateClusters
    refine .require ((collectBitmap_returns before).mono ?_)
    rintro succeeded after rfl
    refine ⟨fun _ => ?_, fun _ => .pure ⟨nofun, fun _ _ _ => rfl⟩⟩
    split
    · exact .pure ⟨nofun, nofun⟩
    refine (readScratch_returns after).seq ?_
    rintro scratch during ⟨rfl, -⟩
    dsimp only
    refine ((planFromHint_returns _ _ _ _ _).and (planFromHint_sweeps ?_)).seq ?_
    · split <;> omega
    rintro result after ⟨⟨rfl, planned⟩, sweeps⟩
    cases result with
    | failed status => exact .pure ⟨sweeps, fun _ _ _ => rfl⟩
    | produced runs =>
      refine (markRuns_taken_back [] runs planned.located planned.free
        ⟨_, rfl, fun _ _ => rfl⟩).seq ?_
      intro status during taken_back
      cases status with
      | some status =>
        refine .pure ⟨fun no_space => ?_, ?_⟩
        · have here := (taken_back status rfl (by rw [no_space]; nofun)).1
          rw [no_space] at here
          cases here
        · rintro _ ⟨⟩ clean
          rw [(taken_back status rfl clean).2]
      | none => exact (Returns.trivial _).seq fun _ finished _ => Returns.pure ⟨sweeps, nofun⟩
  refine ((allocateClusters_returns count capacity before).and rest).mono ?_
  rintro result after ⟨made, sweeps, kept⟩
  cases result with
  | failed status => exact ⟨made, sweeps, kept status rfl⟩
  | produced runs => exact ⟨made.1, made.2, sweeps⟩

end R4OS.Ntfs
