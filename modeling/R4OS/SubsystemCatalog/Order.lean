import Mathlib.Data.List.Perm.Basic
import R4OS.SubsystemCatalog.Candidates
import R4OS.SubsystemCatalog.Installed

/-!
# The order of candidates

A resolution lists its candidates in the order of their identifiers.  The formats of an installed
catalog are told apart by these, so that a resolution depends on the set of its formats only.
-/

namespace R4OS.SubsystemCatalog

open Incremental Text
open Update.Batch (eqlIgnoreCase)

/-- The place of a candidate in a resolution. -/
def Candidate.rank (candidate : Candidate) : Lex (List Nat × List Nat) :=
  toLex (candidate.subsystem_id.map UInt8.toNat, candidate.format_id.map UInt8.toNat)

section Sorting

variable {first second : Candidate} {candidates others : List Candidate}

theorem bytes_inj {first second : Bytes} :
    first.map UInt8.toNat = second.map UInt8.toNat ↔ first = second :=
  (List.map_injective_iff.mpr fun _ _ => UInt8.toNat.inj).eq_iff

theorem rank_inj : first.rank = second.rank ↔ first.key = second.key := by
  unfold Candidate.rank Candidate.key
  rw [toLex_inj, Prod.mk.injEq, Prod.mk.injEq, bytes_inj, bytes_inj]

theorem lessCandidate_iff : lessCandidate first second = true ↔ first.rank < second.rank := by
  unfold lessCandidate Candidate.rank before
  rw [Prod.Lex.toLex_lt_toLex]
  split
  · next different =>
    rw [decide_eq_true_eq]
    refine ⟨Or.inl, fun smaller => smaller.resolve_right ?_⟩
    exact fun same => different (bytes_inj.mp same.1)
  · next same =>
    rw [not_not] at same
    rw [same, decide_eq_true_eq]
    exact ⟨fun smaller => .inr ⟨rfl, smaller⟩,
      fun smaller => (smaller.resolve_left (lt_irrefl _)).2⟩

theorem lessCandidate_eq_false : lessCandidate second first = false ↔ first.rank ≤ second.rank := by
  rw [← Bool.not_eq_true, lessCandidate_iff, not_lt]

theorem finishResolution_le (candidates : List Candidate) :
    (finishResolution candidates).candidates.Pairwise fun first second =>
      first.rank ≤ second.rank := by
  have total : Std.Total fun first second : Candidate => lessCandidate second first = false :=
    ⟨fun first second => by
      rw [lessCandidate_eq_false, lessCandidate_eq_false]
      exact le_total _ _⟩
  have trans : IsTrans Candidate fun first second => lessCandidate second first = false :=
    ⟨fun first second third => by
      rw [lessCandidate_eq_false, lessCandidate_eq_false, lessCandidate_eq_false]
      exact le_trans⟩
  have sorted := List.pairwise_insertionSort
    (fun first second : Candidate => lessCandidate second first = false) candidates
  exact sorted.imp fun smaller => lessCandidate_eq_false.mp smaller

theorem finishResolution_keys (candidates : List Candidate) :
    ((finishResolution candidates).candidates.map Candidate.key).Perm
      (candidates.map Candidate.key) :=
  (List.perm_insertionSort _ _).map _

/-- Candidates that are told apart are listed in strict order. -/
theorem finishResolution_sorted (apart : (candidates.map Candidate.key).Nodup) :
    (finishResolution candidates).candidates.Pairwise fun first second =>
      lessCandidate first second = true := by
  have distinct := List.pairwise_map.mp ((finishResolution_keys candidates).nodup_iff.mpr apart)
  refine (distinct.and (finishResolution_le candidates)).imp fun {first second} both => ?_
  exact lessCandidate_iff.mpr (lt_of_le_of_ne both.2 fun same => both.1 (rank_inj.mp same))

theorem finishResolution_perm (apart : (candidates.map Candidate.key).Nodup)
    (same : candidates.Perm others) : finishResolution candidates = finishResolution others := by
  have sorted : (finishResolution candidates).candidates = (finishResolution others).candidates := by
    refine List.Perm.eq_of_pairwise (fun first second member other_member smaller larger => ?_)
      (finishResolution_le candidates) (finishResolution_le others)
      ((List.perm_insertionSort _ _).trans (same.trans (List.perm_insertionSort _ _).symm))
    have stored : first ∈ candidates := (List.perm_insertionSort _ _).mem_iff.mp member
    have other_stored : second ∈ candidates :=
      same.mem_iff.mpr ((List.perm_insertionSort _ _).mem_iff.mp other_member)
    exact List.inj_on_of_nodup_map apart stored other_stored (rank_inj.mp (le_antisymm smaller larger))
  have counted : candidates.length = others.length := same.length_eq
  unfold finishResolution at sorted ⊢
  rw [Resolution.mk.injEq]
  exact ⟨by rw [counted], sorted⟩

end Sorting

def offered (formats : List (Entry × Bytes)) (evidence : Evidence) : List Candidate :=
  formats.map fun pair => makeCandidate pair.1 pair.2 evidence

section Distinct

variable {formats : List (Entry × Bytes)} {evidence : Evidence}

theorem offered_keys (formats : List (Entry × Bytes)) (evidence : Evidence) :
    (offered formats evidence).map Candidate.key = formats.map pairKey := by
  unfold offered
  rw [List.map_map]
  rfl

theorem collect_apart {start : List Candidate}
    (apart : (start.map Candidate.key ++ formats.map pairKey).Nodup)
    (few : start.length ≤ max_candidates) : collect evidence start formats =
      if start.length + formats.length ≤ max_candidates then .ok (start ++ offered formats evidence)
      else .error .too_many_candidates := by
  unfold collect
  induction formats generalizing start with
  | nil =>
    rw [List.length_nil, Nat.add_zero, if_pos few, offered, List.map_nil, List.append_nil]
    rfl
  | cons pair rest induction =>
    rw [List.map_cons] at apart
    rw [List.foldlM_cons, List.length_cons]
    have unknown : (makeCandidate pair.1 pair.2 evidence).key ∉ start.map Candidate.key :=
      fun known => (List.nodup_append.mp apart).2.2 _ known _ (.head _) rfl
    rcases appendCandidate_cases start (makeCandidate pair.1 pair.2 evidence) with
      ⟨old, -⟩ | ⟨-, room, added⟩ | ⟨-, full, stopped⟩
    · exact absurd old unknown
    · rw [added]
      change List.foldlM _ (start ++ [makeCandidate pair.1 pair.2 evidence]) rest = _
      rw [induction]
      · have counted : (start ++ [makeCandidate pair.1 pair.2 evidence]).length + rest.length =
            start.length + (rest.length + 1) := by
          rw [List.length_append, List.length_singleton]
          omega
        rw [counted, List.append_assoc]
        rfl
      · rw [List.map_append, List.append_assoc]
        exact apart
      · rw [List.length_append, List.length_singleton]
        exact room
    · rw [stopped, if_neg (by omega)]
      rfl

theorem appendAll_apart (apart : (formats.map pairKey).Nodup) : appendAll formats evidence =
    if formats.length ≤ max_candidates then .ok (offered formats evidence)
    else .error .too_many_candidates := by
  have whole : collect evidence [] formats = _ := collect_apart apart (Nat.zero_le _)
  rw [List.length_nil, Nat.zero_add, List.nil_append] at whole
  exact whole

end Distinct

section Formats

variable {catalog : Catalog} {first second : Entry × Bytes} {entry other : Entry}

theorem mem_formats : first ∈ catalog.formats ↔
    first.1 ∈ catalog.entries ∧ first.2 ∈ first.1.guest_formats := by
  obtain ⟨entry, format_id⟩ := first
  unfold Catalog.formats
  simp only [List.mem_flatMap, List.mem_map, Prod.mk.injEq]
  constructor
  · rintro ⟨entry, member, format_id, listed, rfl, rfl⟩
    exact ⟨member, listed⟩
  · rintro ⟨member, listed⟩
    exact ⟨entry, member, format_id, listed, rfl, rfl⟩

variable (installed : Installed catalog)

include installed

theorem Installed.apart : (catalog.formats.map pairKey).Nodup := by
  unfold Catalog.formats
  rw [List.map_flatMap, List.nodup_flatMap]
  constructor
  · intro entry member
    rw [List.map_map]
    refine (installed.formats entry member).map fun first second same => ?_
    exact congrArg Prod.snd same
  · refine installed.ids.imp fun {first second} different key member other_member => ?_
    simp only [List.map_map, List.mem_map] at member other_member
    obtain ⟨format_id, -, rfl⟩ := member
    obtain ⟨other_id, -, same⟩ := other_member
    exact different (congrArg Prod.fst same).symm

theorem Installed.filter_apart (chosen : Entry × Bytes → Bool) :
    ((catalog.formats.filter chosen).map pairKey).Nodup :=
  installed.apart.sublist (List.filter_sublist.map _)

theorem Installed.entry_eq (member : entry ∈ catalog.entries)
    (other_member : other ∈ catalog.entries) (same : entry.subsystem_id = other.subsystem_id) :
    entry = other := by
  have apart : (catalog.entries.map Entry.subsystem_id).Nodup :=
    List.pairwise_map.mpr installed.ids
  exact List.inj_on_of_nodup_map apart member other_member same

theorem Installed.found_entry (member : entry ∈ catalog.entries) :
    findEntry catalog entry.subsystem_id = some entry := by
  unfold findEntry
  have same : eqlIgnoreCase entry.subsystem_id entry.subsystem_id = true := beq_self_eq_true _
  cases found : catalog.entries.find? fun other =>
      eqlIgnoreCase other.subsystem_id entry.subsystem_id with
  | none => exact absurd same (List.find?_eq_none.mp found entry member)
  | some other =>
    have stored := List.mem_of_find?_eq_some found
    have named : eqlIgnoreCase other.subsystem_id entry.subsystem_id = true :=
      by simpa using List.find?_some found
    rw [installed.entry_eq stored member
      ((installed.lower_ids other stored).eq (installed.lower_ids entry member) named)]

end Formats

end R4OS.SubsystemCatalog
