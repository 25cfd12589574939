import Mathlib.Data.Finset.Card
import Mathlib.Data.Prod.Lex
import R4OS.Incremental.Checks
import R4OS.SubsystemCatalog.Catalog

/-!
# Candidates

Candidates are collected without repetition and sorted.  What is collected depends on the formats only,
and the sorted list on nothing but the set of candidates.
-/

namespace R4OS.SubsystemCatalog

open Incremental Text

/-- What tells candidates apart. -/
def Candidate.key (candidate : Candidate) : Bytes × Bytes :=
  (candidate.subsystem_id, candidate.format_id)

def pairKey (pair : Entry × Bytes) : Bytes × Bytes := (pair.1.subsystem_id, pair.2)

def keys (formats : List (Entry × Bytes)) : Finset (Bytes × Bytes) := (formats.map pairKey).toFinset

section Collecting

variable {formats : List (Entry × Bytes)} {evidence : Evidence} {start out : List Candidate}

/-- Candidates without repetition. -/
structure Distinct (candidates : List Candidate) : Prop where
  nodup : (candidates.map Candidate.key).Nodup
  few : candidates.length ≤ max_candidates

theorem appendCandidate_cases (candidates : List Candidate) (candidate : Candidate) :
    (candidate.key ∈ candidates.map Candidate.key ∧
      appendCandidate candidates candidate = .ok candidates) ∨
    (candidate.key ∉ candidates.map Candidate.key ∧ candidates.length < max_candidates ∧
      appendCandidate candidates candidate = .ok (candidates ++ [candidate])) ∨
    (candidate.key ∉ candidates.map Candidate.key ∧ max_candidates ≤ candidates.length ∧
      appendCandidate candidates candidate = .error .too_many_candidates) := by
  have known : (candidates.any fun prior => prior.subsystem_id == candidate.subsystem_id &&
      prior.format_id == candidate.format_id) = true ↔
      candidate.key ∈ candidates.map Candidate.key := by
    rw [List.any_eq_true, List.mem_map]
    refine exists_congr fun prior => and_congr_right fun _ => ?_
    rw [Bool.and_eq_true, beq_iff_eq, beq_iff_eq, Candidate.key, Candidate.key, Prod.mk.injEq]
  unfold appendCandidate
  by_cases old : candidate.key ∈ candidates.map Candidate.key
  · exact .inl ⟨old, if_pos (known.mpr old)⟩
  rw [if_neg (mt known.mp old)]
  by_cases full : max_candidates ≤ candidates.length
  · exact .inr (.inr ⟨old, full, if_pos full⟩)
  · exact .inr (.inl ⟨old, Nat.lt_of_not_le full, if_neg full⟩)

theorem Distinct.concat {candidate : Candidate} (distinct : Distinct start)
    (fresh : candidate.key ∉ start.map Candidate.key) (room : start.length < max_candidates) :
    Distinct (start ++ [candidate]) where
  nodup := by
    rw [List.map_append, List.nodup_append]
    refine ⟨distinct.nodup, List.nodup_singleton _, fun key member other single => ?_⟩
    rw [List.map_singleton, List.mem_singleton] at single
    rintro rfl
    exact fresh (single ▸ member)
  few := by
    rw [List.length_append, List.length_singleton]
    exact room

def collect (evidence : Evidence) (start : List Candidate) (formats : List (Entry × Bytes)) :
    Except ResolveError (List Candidate) :=
  formats.foldlM (fun candidates pair =>
    appendCandidate candidates (makeCandidate pair.1 pair.2 evidence)) start

theorem collect_ok (distinct : Distinct start) (done : collect evidence start formats = .ok out) :
    Distinct out ∧ (∀ candidate ∈ out, candidate ∈ start ∨
        ∃ pair ∈ formats, candidate = makeCandidate pair.1 pair.2 evidence) ∧
      (∀ candidate ∈ start, candidate ∈ out) ∧
      ∀ pair ∈ formats, pairKey pair ∈ out.map Candidate.key := by
  unfold collect at done
  induction formats generalizing start with
  | nil =>
    cases done
    exact ⟨distinct, fun _ member => .inl member, fun _ member => member, by simp⟩
  | cons pair rest induction =>
    rw [List.foldlM_cons] at done
    obtain ⟨middle, stepped, done⟩ := bind_eq_ok.mp done
    rcases appendCandidate_cases start (makeCandidate pair.1 pair.2 evidence) with
      ⟨old, same⟩ | ⟨fresh, room, added⟩ | ⟨-, -, failed⟩
    · rw [same] at stepped
      cases stepped
      obtain ⟨kept, sound, grown, covered⟩ := induction distinct done
      refine ⟨kept, fun candidate member => ?_, grown, ?_⟩
      · exact (sound candidate member).imp_right fun ⟨other, stored, made⟩ =>
          ⟨other, .tail _ stored, made⟩
      · rintro other stored
        rcases List.mem_cons.mp stored with rfl | later
        · obtain ⟨candidate, member, same_key⟩ := List.mem_map.mp old
          exact List.mem_map.mpr ⟨candidate, grown candidate member, same_key⟩
        · exact covered other later
    · rw [added] at stepped
      cases stepped
      obtain ⟨kept, sound, grown, covered⟩ := induction (distinct.concat fresh room) done
      refine ⟨kept, fun candidate member => ?_, fun candidate member =>
        grown candidate (List.mem_append_left _ member), ?_⟩
      · rcases sound candidate member with earlier | ⟨other, stored, made⟩
        · rcases List.mem_append.mp earlier with former | last
          · exact .inl former
          · exact .inr ⟨pair, (.head _), List.mem_singleton.mp last⟩
        · exact .inr ⟨other, .tail _ stored, made⟩
      · rintro other stored
        rcases List.mem_cons.mp stored with rfl | later
        · exact List.mem_map.mpr ⟨_, grown _ (List.mem_append_right _ (List.mem_singleton_self _)),
            rfl⟩
        · exact covered other later
    · rw [failed] at stepped
      cases stepped

theorem collect_error {error : ResolveError} (distinct : Distinct start)
    (failed : collect evidence start formats = .error error) :
    error = .too_many_candidates ∧
      max_candidates < ((start.map Candidate.key).toFinset ∪ keys formats).card := by
  unfold collect at failed
  induction formats generalizing start with
  | nil => cases failed
  | cons pair rest induction =>
    have more : keys rest ⊆ keys (pair :: rest) := by
      unfold keys
      rw [List.map_cons, List.toFinset_cons]
      exact Finset.subset_insert _ _
    rw [List.foldlM_cons] at failed
    rcases appendCandidate_cases start (makeCandidate pair.1 pair.2 evidence) with
      ⟨old, same⟩ | ⟨fresh, room, added⟩ | ⟨fresh, full, stopped⟩
    · rw [same] at failed
      obtain ⟨reason, many⟩ := induction distinct failed
      exact ⟨reason, many.trans_le (Finset.card_le_card (Finset.union_subset_union_right more))⟩
    · rw [added] at failed
      obtain ⟨reason, many⟩ := induction (distinct.concat fresh room) failed
      refine ⟨reason, many.trans_le (Finset.card_le_card ?_)⟩
      intro key member
      rw [Finset.mem_union, List.mem_toFinset, List.map_append, List.mem_append] at member
      rw [Finset.mem_union, List.mem_toFinset]
      rcases member with (former | last) | later
      · exact .inl former
      · refine .inr (List.mem_toFinset.mpr ?_)
        rw [List.map_singleton, List.mem_singleton] at last
        exact last ▸ (.head _)
      · exact .inr (more later)
    · rw [stopped] at failed
      cases failed
      refine ⟨rfl, ?_⟩
      have small : insert (makeCandidate pair.1 pair.2 evidence).key
          (start.map Candidate.key).toFinset ⊆
          (start.map Candidate.key).toFinset ∪ keys (pair :: rest) := by
        intro key member
        rw [Finset.mem_union]
        rcases Finset.mem_insert.mp member with rfl | former
        · exact .inr (List.mem_toFinset.mpr (.head _))
        · exact .inl former
      refine Nat.lt_of_lt_of_le ?_ (Finset.card_le_card small)
      rw [Finset.card_insert_of_notMem (by rwa [List.mem_toFinset]),
        List.toFinset_card_of_nodup distinct.nodup, List.length_map]
      omega

structure Collected (formats : List (Entry × Bytes)) (evidence : Evidence) (out : List Candidate) :
    Prop where
  distinct : Distinct out
  sound : ∀ candidate ∈ out, ∃ pair ∈ formats, candidate = makeCandidate pair.1 pair.2 evidence
  covered : ∀ pair ∈ formats, pairKey pair ∈ out.map Candidate.key

theorem empty_distinct : Distinct [] := ⟨List.nodup_nil, Nat.zero_le _⟩

theorem appendAll_ok (done : appendAll formats evidence = .ok out) :
    Collected formats evidence out ∧ (keys formats).card ≤ max_candidates := by
  obtain ⟨distinct, sound, -, covered⟩ := collect_ok empty_distinct done
  refine ⟨⟨distinct, fun candidate member => ?_, covered⟩, ?_⟩
  · exact (sound candidate member).resolve_left (List.not_mem_nil)
  · have inside : keys formats ⊆ (out.map Candidate.key).toFinset := by
      intro key member
      obtain ⟨pair, stored, rfl⟩ := List.mem_map.mp (List.mem_toFinset.mp member)
      exact List.mem_toFinset.mpr (covered pair stored)
    calc (keys formats).card ≤ (out.map Candidate.key).toFinset.card := Finset.card_le_card inside
      _ ≤ (out.map Candidate.key).length := List.toFinset_card_le _
      _ = out.length := List.length_map _
      _ ≤ max_candidates := distinct.few

theorem appendAll_cases (formats : List (Entry × Bytes)) (evidence : Evidence) :
    (∃ out, appendAll formats evidence = .ok out ∧ Collected formats evidence out ∧
      (keys formats).card ≤ max_candidates) ∨
    (appendAll formats evidence = .error .too_many_candidates ∧
      max_candidates < (keys formats).card) := by
  cases done : appendAll formats evidence with
  | ok out => exact .inl ⟨out, rfl, appendAll_ok done⟩
  | error error =>
    obtain ⟨rfl, many⟩ := collect_error empty_distinct done
    exact .inr ⟨rfl, by simpa using many⟩

end Collecting

end R4OS.SubsystemCatalog
