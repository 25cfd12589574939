import R4OS.Ntfs.HoleFilling

/-!
# The stream that file records describe

Collecting an attribute reads the base record of a file and the records that its attribute list
names.  Records that stay the same describe the same stream, and a run list that was written into a
record is the run list that is collected from it.
-/

namespace R4OS.Ntfs

open Crash Text

/-- The record in use at a place that the table addresses. -/
def VolumeState.record? (state : VolumeState) (number : Nat) : Option FileRecord :=
  if number < state.record_count then (state.records number).record? else none

section

variable (v : Volume)

/-- What the entries of an attribute list describe, behind what was collected before. -/
def listedStream (state : VolumeState) (number sequence : Nat) :
    List AttributeListEntry → Option (AttrScratch × Nat) → Option (Option (AttrScratch × Nat))
  | [], collected => some collected
  | entry :: rest, collected => do
      let part ← state.record? entry.mft_reference.record
      let captured ← (listedAttribute number sequence entry part).bind
        (captureAttribute v · collected)
      listedStream state number sequence rest (some captured)

/-- The stream that the records describe. -/
def fileStream (state : VolumeState) (number : Nat) : LookupStatus AttrScratch :=
  match state.record? number with
  | none => .io
  | some base =>
    match base.attribute_lists with
    | [] => collectDirect v base
    | { entries := none, .. } :: _ => .io
    | { entries := some entries, .. } :: _ =>
      match listedStream v state number base.sequence entries none with
      | none => .io
      | some (some (collected, _)) => .found collected
      | some none => collectDirect v base

end

section

variable {v : Volume}

variable {exempt : Nat → Prop} {before after : VolumeState}

variable (number : Nat)

theorem loadSlot_returns (before : VolumeState) :
    Returns v (fun result after => after = before ∧ ∀ slot, result = some slot →
      number < before.record_count ∧ slot = before.records number)
      (VolumeCall.loadSlot number).perform before := by
  refine .perform ⟨rfl, fun slot found => ?_⟩ ?_
  · simp only [VolumeCall.succeed] at found
    split at found
    · rename_i inside
      exact ⟨inside, (Option.some.inj found).symm⟩
    · cases found
  · rintro answer after ⟨rfl, rfl⟩
    exact ⟨rfl, by simp⟩

theorem loadRecord_returns (before : VolumeState) :
    Returns v (fun result after => after = before ∧ ∀ record, result = some record →
      before.record? number = some record) (loadRecord number) before := by
  refine (loadSlot_returns number before).seq ?_
  rintro slot after ⟨rfl, loaded⟩
  refine .pure ⟨rfl, fun record found => ?_⟩
  obtain ⟨slot, rfl, in_use⟩ := Option.bind_eq_some_iff.mp found
  obtain ⟨inside, rfl⟩ := loaded slot rfl
  rw [VolumeState.record?, if_pos inside, in_use]

theorem collectListed_returns (sequence : Nat) (entries : List AttributeListEntry)
    (collected : Option (AttrScratch × Nat)) (before : VolumeState) :
    Returns v (fun result after => after = before ∧
      (result = none ∨ result = listedStream v before number sequence entries collected))
      (collectListed v number sequence entries collected) before := by
  induction entries generalizing collected with
  | nil => exact .pure ⟨rfl, .inr rfl⟩
  | cons entry rest induction =>
    unfold collectListed
    refine (loadRecord_returns _ before).seq ?_
    rintro part after ⟨rfl, loaded⟩
    cases part with
    | none => exact .pure ⟨rfl, .inl rfl⟩
    | some part =>
      have loaded := loaded part rfl
      simp only
      split
      · exact .pure ⟨rfl, .inl rfl⟩
      · rename_i captured found
        refine (induction _).mono fun result during => ?_
        rintro ⟨rfl, result_eq⟩
        refine ⟨rfl, result_eq.imp_right fun result_eq => ?_⟩
        simp [listedStream, loaded, found, result_eq]

theorem collectAttributeStatus_returns (before : VolumeState) :
    Returns v (fun result after => after = before ∧ ∀ attr, result = .found attr →
      fileStream v before number = .found attr) (collectAttributeStatus v number) before := by
  unfold collectAttributeStatus
  refine (loadRecord_returns _ before).seq ?_
  rintro base after ⟨rfl, loaded⟩
  cases base with
  | none => exact .pure ⟨rfl, by simp⟩
  | some base =>
    have loaded := loaded base rfl
    simp only
    split
    · rename_i lists
      refine .pure ⟨rfl, fun attr found => ?_⟩
      simp [fileStream, loaded, lists, found]
    · exact .pure ⟨rfl, by simp⟩
    · rename_i entries rest lists
      refine (collectListed_returns _ _ _ _ _).seq ?_
      rintro result during ⟨rfl, result_eq⟩
      rcases result_eq with rfl | rfl
      · exact .pure ⟨rfl, by simp⟩
      split
      · exact .pure ⟨rfl, by simp⟩
      · rename_i listed
        refine .pure ⟨rfl, fun attr found => ?_⟩
        simp [fileStream, loaded, lists, listed, found]
      · rename_i listed
        refine .pure ⟨rfl, fun attr found => ?_⟩
        simp [fileStream, loaded, lists, listed, found]

theorem loadRecord_run (state : VolumeState) :
    (loadRecord number).run (VolumeCall.succeed v) state = (state.record? number, state) := by
  simp only [loadRecord, VolumeCall.perform, Program.run_bind, Program.run_perform,
    Program.run_pure, VolumeCall.succeed, VolumeState.record?]
  split <;> rfl

theorem collectListed_run (sequence : Nat) (entries : List AttributeListEntry)
    (collected : Option (AttrScratch × Nat)) (state : VolumeState) :
    (collectListed v number sequence entries collected).run (VolumeCall.succeed v) state =
      (listedStream v state number sequence entries collected, state) := by
  induction entries generalizing collected with
  | nil => rfl
  | cons entry rest induction =>
    simp only [collectListed, Program.run_bind, loadRecord_run, listedStream]
    cases state.record? entry.mft_reference.record with
    | none => rfl
    | some part =>
      simp only [Option.bind_eq_bind, Option.bind_some]
      cases (listedAttribute number sequence entry part).bind
          (captureAttribute v · collected) with
      | none => rfl
      | some captured => exact induction (some captured)

theorem collectAttributeStatus_run (state : VolumeState) :
    (collectAttributeStatus v number).run (VolumeCall.succeed v) state =
      (fileStream v state number, state) := by
  simp only [collectAttributeStatus, Program.run_bind, loadRecord_run, fileStream]
  cases state.record? number with
  | none => rfl
  | some base =>
    obtain ⟨sequence, _, _, _, _, _, _, _, lists, _⟩ := base
    cases lists with
    | nil => rfl
    | cons list rest =>
      obtain ⟨_, entries⟩ := list
      cases entries with
      | none => rfl
      | some entries =>
        simp only [Program.run_bind, collectListed_run]
        rcases listedStream v state number sequence entries none with _ | _ | ⟨_, _⟩ <;> rfl

/-- Records in use stay, but for the exempt ones. -/
structure RecordsKept (exempt : Nat → Prop) (before after : VolumeState) : Prop where
  count : before.record_count ≤ after.record_count
  record : ∀ number record, before.record? number = some record → ¬exempt number →
    after.record? number = some record

theorem RecordsSame.kept (same : RecordsSame before after) : RecordsKept exempt before after where
  count := by rw [same.record_count]
  record number record found _ := by
    rwa [VolumeState.record?, same.records, same.record_count]

theorem RecordsSame.record? (same : RecordsSame before after)
    (number : Nat) : after.record? number = before.record? number := by
  rw [VolumeState.record?, VolumeState.record?, same.records, same.record_count]

theorem RecordsKept.trans {exempt exempt' : Nat → Prop} {before during after : VolumeState}
    (first : RecordsKept exempt before during) (second : RecordsKept exempt' during after)
    (exempted : ∀ number, exempt' number → exempt number ∨ before.record? number = none) :
    RecordsKept exempt before after where
  count := first.count.trans second.count
  record number record found foreign :=
    second.record number record (first.record number record found foreign) fun member =>
      (exempted number member).elim foreign fun blank => by rw [blank] at found; cases found

variable (kept : RecordsKept exempt before after)

include kept

theorem RecordsKept.weaken {exempt' : Nat → Prop}
    (exempted : ∀ number, exempt number → exempt' number ∨ before.record? number = none) :
    RecordsKept exempt' before after where
  count := kept.count
  record number record found foreign :=
    kept.record number record found fun member =>
      (exempted number member).elim foreign fun blank => by rw [blank] at found; cases found

theorem listedStream_kept {number sequence : Nat} {entries : List AttributeListEntry}
    {collected result : Option (AttrScratch × Nat)} (own : ¬exempt number)
    (extension : ∀ number' record sequence', before.record? number' = some record →
      record.base_record = some ⟨number, sequence'⟩ → ¬exempt number')
    (listed : listedStream v before number sequence entries collected = some result) :
    listedStream v after number sequence entries collected = some result := by
  induction entries generalizing collected with
  | nil => exact listed
  | cons entry rest induction =>
    obtain ⟨part, found, listed⟩ := Option.bind_eq_some_iff.mp listed
    obtain ⟨captured, captured_eq, listed⟩ := Option.bind_eq_some_iff.mp listed
    have foreign : ¬exempt entry.mft_reference.record := by
      obtain ⟨attr, placed, -⟩ := Option.bind_eq_some_iff.mp captured_eq
      unfold listedAttribute at placed
      split at placed
      · rename_i place
        rcases place.2 with same | based
        · rwa [same]
        · exact extension _ part sequence found based
      · cases placed
    have found' := kept.record _ part found foreign
    simp only [listedStream, Option.bind_eq_bind, found', captured_eq, Option.bind_some]
    exact induction listed

theorem fileStream_kept {number : Nat} {attr : AttrScratch} (own : ¬exempt number)
    (extension : ∀ number' record sequence, before.record? number' = some record →
      record.base_record = some ⟨number, sequence⟩ → ¬exempt number')
    (found : fileStream v before number = .found attr) :
    fileStream v after number = .found attr := by
  unfold fileStream at found ⊢
  cases loaded : before.record? number with
  | none => simp [loaded] at found
  | some base =>
    simp only [kept.record number base loaded own]
    simp only [loaded] at found
    split at found
    · exact found
    · cases found
    · rename_i entries _ _
      cases listed : listedStream v before number base.sequence entries none with
      | none => simp [listed] at found
      | some result =>
        rw [listed] at found
        rw [listedStream_kept kept own extension listed]
        exact found

end

end R4OS.Ntfs
