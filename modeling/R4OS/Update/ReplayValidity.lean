import R4OS.Update.Cleanup
import R4OS.Update.JournalRestore
import R4OS.Update.RecoveryCrash

/-!
# Validity of replayed journals

Rollback, forward continuation and cleanup persist the journal after every step.  Each step only
moves phase, markers and counts, so that a journal that was valid stays valid as long as committed
payloads remain in front, rolled-back ones remain behind, and the counts suit the phase.  A valid
journal always fits its buffer, so that no persist is refused by the serializer.
-/

namespace R4OS.Update

open Crash Text

variable {journal : TransactionJournal}

/-- Of two payloads in order, the later one is not the only committed one and the earlier one is not
the only rolled-back one. -/
def MarkedInOrder (earlier later : JournalPayload) : Prop :=
  (later.committed → earlier.committed) ∧ (earlier.rolled_back → later.rolled_back)

theorem markersOrdered_iff (saw_uncommitted saw_rollback : Bool) (payloads : List JournalPayload) :
    markersOrdered saw_uncommitted saw_rollback payloads = true ↔
      payloads.Pairwise MarkedInOrder ∧
      (saw_uncommitted → ∀ entry ∈ payloads, ¬ entry.committed) ∧
      (saw_rollback → ∀ entry ∈ payloads, entry.rolled_back) := by
  induction payloads generalizing saw_uncommitted saw_rollback with
  | nil => simp [markersOrdered]
  | cons entry rest induction =>
    rw [markersOrdered, Bool.and_eq_true, Bool.and_eq_true, induction, List.pairwise_cons]
    simp only [List.forall_mem_cons, MarkedInOrder]
    cases saw_uncommitted <;> cases saw_rollback <;> cases entry.committed <;>
      cases entry.rolled_back <;> simp <;> grind

theorem holds_iff_lt_countP {Entry : Type} (holds : Entry → Bool) {entries : List Entry}
    (ordered : entries.Pairwise fun earlier later => holds later → holds earlier)
    {index : Nat} {entry : Entry} (found : entries[index]? = some entry) :
    holds entry = true ↔ index < entries.countP holds := by
  induction entries generalizing index with
  | nil => cases found
  | cons head rest induction =>
    obtain ⟨front, ordered⟩ := List.pairwise_cons.mp ordered
    cases head_holds : holds head with
    | true =>
      rw [List.countP_cons_of_pos head_holds]
      cases index with
      | zero =>
        obtain rfl : head = entry := Option.some.inj found
        simp [head_holds]
      | succ index => simpa using induction ordered found
    | false =>
      have none_holds : rest.countP holds = 0 := by
        rw [List.countP_eq_zero]
        intro other member other_holds
        exact absurd (front other member other_holds) (by simp [head_holds])
      rw [List.countP_cons_of_neg (by simp [head_holds]), none_holds]
      simp only [Nat.not_lt_zero, iff_false]
      rcases List.mem_cons.mp (List.mem_of_getElem? found) with rfl | member
      · simp [head_holds]
      · exact List.countP_eq_zero.mp none_holds entry member

theorem holds_iff_countP_le {Entry : Type} (holds : Entry → Bool) {entries : List Entry}
    (ordered : entries.Pairwise fun earlier later => holds earlier → holds later)
    {index : Nat} {entry : Entry} (found : entries[index]? = some entry) :
    holds entry = true ↔ entries.length - entries.countP holds ≤ index := by
  have negated := holds_iff_lt_countP (fun entry => !holds entry)
    (ordered.imp fun {earlier later} kept => by
      cases earlier_holds : holds earlier <;> simp_all) found
  have total := List.length_eq_countP_add_countP holds (l := entries)
  have flipped : entries.countP (fun entry => !holds entry) =
      entries.countP (fun entry => decide ¬holds entry = true) :=
    List.countP_congr fun entry _ => by simp
  rw [Bool.not_eq_true', flipped] at negated
  cases entry_holds : holds entry <;> simp only [entry_holds] at negated ⊢ <;> grind

/-- What the markers of a valid journal look like: committed payloads in front and rolled-back
payloads behind, both as many as counted. -/
structure MarkersPlaced (journal : TransactionJournal) : Prop where
  committed : ∀ index entry, journal.payloads[index]? = some entry →
    (entry.committed = true ↔ index < journal.committed_count)
  rolled_back : ∀ index entry, journal.payloads[index]? = some entry →
    (entry.rolled_back = true ↔ journal.payload_count - journal.rollback_count ≤ index)

/-- The marker rules of a valid journal. -/
structure MarkerParts (journal : TransactionJournal) : Prop where
  ordered : journal.payloads.Pairwise MarkedInOrder
  apart : ∀ entry ∈ journal.payloads, ¬ (entry.committed ∧ entry.rolled_back)
  committed_count : journal.payloads.countP JournalPayload.committed = journal.committed_count
  rollback_count : journal.payloads.countP JournalPayload.rolled_back = journal.rollback_count
  phase : phaseCountsValid journal = true

theorem payloadValid_apart {entry : JournalPayload} (valid : payloadValid entry = true) :
    ¬ (entry.committed ∧ entry.rolled_back) := by
  simp only [payloadValid, Bool.and_eq_true, Bool.not_eq_true'] at valid
  simpa using valid.1.1.1.2

theorem markerParts (valid : journalValid journal = true) :
    MarkerParts journal := by
  have payloads := (validParts valid).payloads
  simp only [journalValid, Bool.and_eq_true, beq_iff_eq] at valid
  obtain ⟨⟨⟨⟨-, ordered⟩, committed⟩, rolled_back⟩, phase⟩ := valid
  exact ⟨((markersOrdered_iff _ _ _).mp ordered).1, fun entry member =>
    payloadValid_apart (payloads entry member), committed, rolled_back, phase⟩

theorem MarkerParts.placed (parts : MarkerParts journal) :
    MarkersPlaced journal where
  committed index entry found := by
    rw [← parts.committed_count]
    exact holds_iff_lt_countP _ (parts.ordered.imp fun order => order.1) found
  rolled_back index entry found := by
    rw [← parts.rollback_count]
    exact holds_iff_countP_le _ (parts.ordered.imp fun order => order.2) found

/-- A journal with other markers in another phase, recounted. -/
def TransactionJournal.remark (journal : TransactionJournal) (phase : JournalPhase)
    (payloads : List JournalPayload) (present : Bool) : TransactionJournal :=
  recount { journal with phase := phase, payloads := payloads, rollback_markers_present := present }

section Remark

variable {journal : TransactionJournal} {phase : JournalPhase} {payloads : List JournalPayload}
  {present : Bool}

theorem journalPathsValid_congr {other : TransactionJournal}
    (source : other.sourceText = journal.sourceText)
    (paths : other.payloads.flatMap journalPayloadPaths =
      journal.payloads.flatMap journalPayloadPaths)
    (own : other.payloads.zipIdx.all (payloadPathsValid other) =
      journal.payloads.zipIdx.all (payloadPathsValid journal)) :
    journalPathsValid other = journalPathsValid journal := by
  simp [journalPathsValid, source, paths, own]

theorem journalPathsValid_remark (same : payloads.map JournalPayload.unmark = unmarked journal) :
    journalPathsValid (journal.remark phase payloads present) = journalPathsValid journal := by
  have paths (entries : List JournalPayload) : entries.flatMap journalPayloadPaths =
      (entries.map JournalPayload.unmark).flatMap journalPayloadPaths := by
    rw [List.flatMap_map]
    rfl
  have indexed (entries : List JournalPayload) : entries.zipIdx.all (payloadPathsValid journal) =
      (entries.map JournalPayload.unmark).zipIdx.all (payloadPathsValid journal) := by
    rw [List.zipIdx_map, List.all_map]
    rfl
  refine journalPathsValid_congr rfl ?_ ?_
  · exact (paths payloads).trans (same ▸ (paths journal.payloads).symm)
  · exact (indexed payloads).trans (same ▸ (indexed journal.payloads).symm)

theorem payloadValid_of_unmark {entry other : JournalPayload} (valid : payloadValid other = true)
    (same : entry.unmark = other.unmark) (apart : ¬ (entry.committed ∧ entry.rolled_back)) :
    payloadValid entry = true := by
  have bare : payloadValid entry.unmark = true := by
    rw [same]
    simp only [payloadValid, Bool.and_eq_true] at valid ⊢
    obtain ⟨⟨⟨⟨first, -⟩, second⟩, third⟩, fourth⟩ := valid
    exact ⟨⟨⟨⟨first, rfl⟩, second⟩, third⟩, fourth⟩
  simp only [payloadValid, Bool.and_eq_true] at bare ⊢
  obtain ⟨⟨⟨⟨first, -⟩, second⟩, third⟩, fourth⟩ := bare
  exact ⟨⟨⟨⟨first, by cases committed : entry.committed <;> simp_all⟩, second⟩, third⟩, fourth⟩

/-- A replay step keeps a journal valid when it keeps the rules of the markers and the phase. -/
theorem journalValid_remark (valid : journalValid journal = true)
    (same : payloads.map JournalPayload.unmark = unmarked journal)
    (ordered : payloads.Pairwise MarkedInOrder)
    (apart : ∀ entry ∈ payloads, ¬ (entry.committed ∧ entry.rolled_back))
    (boot : phase = .post_boot → journal.batch = true)
    (counts : phaseCountsValid (journal.remark phase payloads present) = true) :
    journalValid (journal.remark phase payloads present) = true := by
  have entries := (validParts valid).payloads
  have paths : journalPathsValid (journal.remark phase payloads present) =
      journalPathsValid journal := journalPathsValid_remark same
  have length_eq : payloads.length = journal.payloads.length := by
    simpa [unmarked] using congrArg List.length same
  simp only [journalValid, Bool.and_eq_true] at valid ⊢
  obtain ⟨⟨⟨⟨⟨⟨⟨⟨⟨header, paths_valid⟩, batch⟩, -⟩, components⟩, -⟩, -⟩, -⟩, -⟩, -⟩ := valid
  refine ⟨⟨⟨⟨⟨⟨⟨⟨⟨?_, paths.trans paths_valid⟩, batch⟩, ?_⟩, components⟩, ?_⟩, ?_⟩, ?_⟩, ?_⟩,
    counts⟩
  · have committed_le := List.countP_le_length (p := JournalPayload.committed) (l := payloads)
    have rollback_le := List.countP_le_length (p := JournalPayload.rolled_back) (l := payloads)
    simp only [headerValid, Bool.and_eq_true, decide_eq_true_eq, TransactionJournal.remark,
      recount, TransactionJournal.payload_count, TransactionJournal.component_count,
      length_eq] at header committed_le rollback_le ⊢
    grind
  · cases phase_eq : phase <;> simp_all [TransactionJournal.remark, recount]
  · rw [List.all_eq_true]
    intro entry member
    obtain ⟨twin, twin_mem, twin_eq⟩ : ∃ twin ∈ journal.payloads, twin.unmark = entry.unmark :=
      List.mem_map.mp (show entry.unmark ∈ unmarked journal from same ▸ List.mem_map_of_mem member)
    exact payloadValid_of_unmark (entries twin twin_mem) twin_eq.symm (apart entry member)
  · exact (markersOrdered_iff _ _ _).mpr ⟨ordered, by simp, by simp⟩
  · exact beq_self_eq_true _
  · exact beq_self_eq_true _

theorem journalValid_phase (valid : journalValid journal = true)
    (boot : phase = .post_boot → journal.batch = true)
    (counts : phaseCountsValid (journal.remark phase journal.payloads present) = true) :
    journalValid (journal.remark phase journal.payloads present) = true :=
  journalValid_remark valid rfl (markerParts valid).ordered (markerParts valid).apart boot counts

end Remark

section Steps

variable {journal : TransactionJournal} {index : Nat} {entry : JournalPayload}

/-- A stamp that a persist may leave behind: one of the two slots and a positive generation. -/
def Stamp.Admissible (stamp : Stamp) : Prop := stamp.slot ≤ 1 ∧ stamp.journal_generation ≠ 0

theorem journalValid_restamped {stamp : Stamp} (valid : journalValid journal = true)
    (admissible : stamp.Admissible) : journalValid (journal.stamp stamp) = true := by
  simp only [journalValid, Bool.and_eq_true] at valid ⊢
  obtain ⟨⟨⟨⟨⟨⟨⟨⟨⟨header, paths⟩, batch⟩, boot⟩, components⟩, payloads⟩, ordered⟩, committed⟩,
    rolled⟩, counts⟩ := valid
  refine ⟨⟨⟨⟨⟨⟨⟨⟨⟨?_, paths⟩, batch⟩, boot⟩, components⟩, payloads⟩, ordered⟩, committed⟩, rolled⟩,
    counts⟩
  obtain ⟨slot_le, generation⟩ := admissible
  simp only [headerValid, Bool.and_eq_true, decide_eq_true_eq, bne_iff_ne] at header ⊢
  simp only [TransactionJournal.stamp, TransactionJournal.payload_count,
    TransactionJournal.component_count] at header ⊢
  tauto

/-- Replacing the markers of one payload keeps the order when it does so against both sides. -/
theorem pairwise_set {marked : JournalPayload} (ordered : journal.payloads.Pairwise MarkedInOrder)
    (before : ∀ position other, position < index → journal.payloads[position]? = some other →
      MarkedInOrder other marked)
    (behind : ∀ position other, index < position → journal.payloads[position]? = some other →
      MarkedInOrder marked other) :
    (journal.payloads.set index marked).Pairwise MarkedInOrder := by
  rw [List.pairwise_iff_getElem] at ordered ⊢
  intro first second first_lt second_lt first_second
  rw [List.length_set] at first_lt second_lt
  rw [List.getElem_set, List.getElem_set]
  split
  · rename_i here
    subst here
    rw [if_neg (by omega)]
    exact behind second _ first_second (List.getElem?_eq_getElem second_lt)
  · split
    · rename_i here
      subst here
      exact before first _ first_second (List.getElem?_eq_getElem first_lt)
    · exact ordered first second first_lt second_lt first_second

theorem journalValid_rollback_step (valid : journalValid journal = true)
    (phase : journal.phase = .rollback)
    (behind : ∀ position other, index < position → journal.payloads[position]? = some other →
      other.rolled_back = true)
    (found : journal.payloads[index]? = some entry) :
    journalValid (recount (journal.setPayload index
      { entry with committed := false, rolled_back := true })) = true := by
  have parts := markerParts valid
  have step : journalValid (journal.remark .rollback (journal.payloads.set index
      { entry with committed := false, rolled_back := true })
      journal.rollback_markers_present) = true := journalValid_remark valid
    (unmarked_setPayload { entry with committed := false, rolled_back := true } found rfl)
    (pairwise_set parts.ordered (fun _ _ _ _ => ⟨nofun, fun _ => rfl⟩)
      fun position other after other_found => by
        have rolled_back := behind position other after other_found
        have apart := parts.apart other (List.mem_of_getElem? other_found)
        exact ⟨fun committed => absurd ⟨committed, rolled_back⟩ apart, fun _ => rolled_back⟩)
    (by
      intro other member
      rcases mem_setPayload member with rfl | old
      · simp
      · exact parts.apart other old)
    nofun rfl
  rw [← phase] at step
  exact step

theorem journalValid_commit_step (valid : journalValid journal = true)
    (phase : journal.phase = .commit)
    (before : ∀ position other, position < index → journal.payloads[position]? = some other →
      other.committed = true)
    (found : journal.payloads[index]? = some entry) :
    journalValid (recount (journal.setPayload index
      { entry with committed := true, rolled_back := false })) = true := by
  have parts := markerParts valid
  have unrolled := not_rolled_back_of_valid valid (.inr (.inl phase))
  have still_unrolled : ∀ other ∈ journal.payloads.set index
      { entry with committed := true, rolled_back := false }, ¬ other.rolled_back := by
    intro other member
    rcases List.mem_or_eq_of_mem_set member with old | rfl
    · exact unrolled other old
    · simp
  have step : journalValid (journal.remark .commit (journal.payloads.set index
      { entry with committed := true, rolled_back := false })
      journal.rollback_markers_present) = true := journalValid_remark valid
    (unmarked_setPayload { entry with committed := true, rolled_back := false } found rfl)
    (pairwise_set parts.ordered
      (fun position other prior other_found =>
        ⟨fun _ => before position other prior other_found, fun rolled_back =>
          absurd rolled_back (unrolled other (List.mem_of_getElem? other_found))⟩)
      fun _ _ _ _ => ⟨fun _ => rfl, nofun⟩)
    (fun other member both => still_unrolled other member both.2)
    nofun (beq_iff_eq.mpr (List.countP_eq_zero.mpr still_unrolled))
  rw [← phase] at step
  exact step

end Steps

/-- Callbacks with arbitrary answers that log every journal handed to persist.  A persist that
succeeds stamps one of the two slots and a positive generation. -/
def replayDevice : Device RecoveryIo.Answer (List TransactionJournal)
  | .persist journal, before, answer, after =>
    (∀ stamp, answer = some stamp → stamp.Admissible) ∧ after = before ++ [journal]
  | .pathState _ _ _, before, _, after => after = before
  | .presence _, before, _, after => after = before
  | .rollbackPayload _, before, _, after => after = before
  | .commitPayload _, before, _, after => after = before
  | .cleanupPayload _, before, _, after => after = before

/-- Every journal handed to persist is valid. -/
def AllValid (log : List TransactionJournal) : Prop := ∀ journal ∈ log, journalValid journal = true

/-- A journal in memory after a persist: valid, and at most the stamp is another one. -/
structure Restamped (journal memory : TransactionJournal) : Prop where
  valid : journalValid memory = true
  phase : memory.phase = journal.phase
  batch : memory.batch = journal.batch
  payloads : memory.payloads = journal.payloads

theorem persist_valid {log : List TransactionJournal}
    (all : AllValid log) (valid : journalValid journal = true) :
    Ensures replayDevice AllValid
      (fun answer _ => Restamped journal answer.2) (persist journal) log := by
  refine .perform_bind all ?_
  rintro answer after ⟨admissible, rfl⟩
  have kept : AllValid (log ++ [journal]) := by
    intro other member
    rcases List.mem_append.mp member with old | new
    · exact all other old
    · obtain rfl := List.mem_singleton.mp new
      exact valid
  cases answer with
  | some stamp =>
    exact .pure kept ⟨journalValid_restamped valid (admissible stamp rfl), rfl, rfl, rfl⟩
  | none => exact .pure kept ⟨valid, rfl, rfl, rfl⟩

theorem silent_valid {Result : Type} {operation : RecoveryIo} {log : List TransactionJournal}
    {rest : RecoveryIo.Answer operation → Recovery Result}
    {post : Result → List TransactionJournal → Prop}
    (silent : ∀ answer after, replayDevice operation log answer after → after = log)
    (all : AllValid log)
    (continued : ∀ answer, Ensures replayDevice AllValid post (rest answer) log) :
    Ensures replayDevice AllValid post (RecoveryIo.perform operation >>= rest) log := by
  refine .perform_bind all fun answer after transition => ?_
  obtain rfl := silent answer after transition
  exact continued answer

section Rollback

variable {journal : TransactionJournal} {log : List TransactionJournal}

def RolledBackFrom (journal : TransactionJournal) (position : Nat) : Prop :=
  ∀ index entry, position ≤ index → journal.payloads[index]? = some entry →
    entry.rolled_back = true

theorem RolledBackFrom.extend {cursor : Nat} {entry : JournalPayload}
    (behind : RolledBackFrom journal (cursor + 1))
    (found : journal.payloads[cursor]? = some entry) (rolled_back : entry.rolled_back = true) :
    RolledBackFrom journal cursor := by
  intro index other after other_found
  rcases Nat.eq_or_lt_of_le after with rfl | later
  · obtain rfl := Option.some.inj (found.symm.trans other_found)
    exact rolled_back
  · exact behind index other later other_found

theorem markRolledBack_valid {cursor : Nat} {entry : JournalPayload} (all : AllValid log)
    (valid : journalValid journal = true) (phase : journal.phase = .rollback)
    (behind : RolledBackFrom journal (cursor + 1))
    (found : journal.payloads[cursor]? = some entry) :
    Ensures replayDevice AllValid
      (fun answer _ => journalValid answer.2 = true ∧ answer.2.phase = .rollback ∧
        RolledBackFrom answer.2 cursor)
      (markRolledBack journal cursor entry) log := by
  unfold markRolledBack
  split
  · rename_i rolled_back
    exact .pure all ⟨valid, phase, behind.extend found rolled_back⟩
  · refine (persist_valid all (journalValid_rollback_step valid phase
      (fun position other after => behind position other after) found)).mono
      (fun _ kept => kept) ?_
    rintro answer after - restamped
    refine ⟨restamped.valid, restamped.phase.trans phase, ?_⟩
    intro index other after_cursor other_found
    rw [restamped.payloads, recount_payloads, setPayload_payloads, List.getElem?_set] at other_found
    split at other_found
    · split at other_found
      · rw [← Option.some.inj other_found]
      · cases other_found
    · exact behind index other (by omega) other_found

theorem rollbackTarget_valid (entry : JournalPayload) (all : AllValid log) :
    Ensures replayDevice AllValid (fun _ _ => True) (rollbackTarget entry) log := by
  unfold rollbackTarget
  split
  · refine .perform all fun status after same => ?_
    obtain rfl : after = log := same
    exact ⟨all, trivial⟩
  · exact .pure all trivial

theorem rolled_back_counts {present : Bool} (parts : MarkerParts journal)
    (complete : RolledBackFrom journal 0) :
    phaseCountsValid (journal.remark .rolled_back journal.payloads present) = true := by
  have rolled_back : ∀ entry ∈ journal.payloads, entry.rolled_back = true := by
    intro entry member
    obtain ⟨index, inside, element⟩ := List.getElem_of_mem member
    exact complete index entry (Nat.zero_le _) (List.getElem?_eq_some_iff.mpr ⟨inside, element⟩)
  have none_committed : journal.payloads.countP JournalPayload.committed = 0 :=
    List.countP_eq_zero.mpr fun entry member committed =>
      parts.apart entry member ⟨committed, rolled_back entry member⟩
  have all_rolled : journal.payloads.countP JournalPayload.rolled_back = journal.payloads.length :=
    List.countP_eq_length.mpr rolled_back
  simp [phaseCountsValid, TransactionJournal.remark, recount, none_committed, all_rolled,
    TransactionJournal.payload_count]

/-- The rollback loop keeps every persisted journal and the one in memory valid. -/
theorem rollbackPayloads_valid (cursor : Nat) (all : AllValid log)
    (valid : journalValid journal = true) (phase : journal.phase = .rollback)
    (behind : RolledBackFrom journal cursor) :
    Ensures replayDevice AllValid
      (fun answer _ => journalValid answer.2 = true ∧
        (answer.1 = .ok → RolledBackFrom answer.2 0))
      (rollbackPayloads cursor journal) log := by
  induction cursor generalizing journal log with
  | zero => exact .pure all ⟨valid, fun _ => behind⟩
  | succ cursor induction =>
    rw [rollbackPayloads]
    split
    · exact .pure all ⟨valid, by rintro ⟨⟩⟩
    · rename_i entry found
      refine .seq (rollbackTarget_valid entry all) ?_
      rintro status after kept -
      cases status with
      | conflict | io => exact .pure kept ⟨valid, by rintro ⟨⟩⟩
      | ok =>
        refine .seq (markRolledBack_valid kept valid phase behind found) ?_
        rintro ⟨persisted, memory⟩ later later_kept ⟨memory_valid, memory_phase, memory_behind⟩
        cases persisted with
        | false => exact .pure later_kept ⟨memory_valid, by rintro ⟨⟩⟩
        | true => exact induction later_kept memory_valid memory_phase memory_behind

theorem rollbackToTerminal_valid (all : AllValid log) (valid : journalValid journal = true) :
    Ensures replayDevice AllValid (fun answer _ => journalValid answer.2 = true)
      (rollbackToTerminal journal) log := by
  unfold rollbackToTerminal
  split
  · exact .pure all valid
  split
  · exact .pure all valid
  have started : journalValid (journal.remark .rollback journal.payloads true) = true :=
    journalValid_phase valid nofun rfl
  refine .seq (persist_valid all started) ?_
  rintro ⟨persisted, memory⟩ log' kept restamped
  cases persisted with
  | false => exact .pure kept restamped.valid
  | true =>
    have nothing_behind : RolledBackFrom memory memory.payload_count := by
      intro index entry outside found
      have inside := (List.getElem?_eq_some_iff.mp found).1
      exact absurd inside (Nat.not_lt.mpr outside)
    refine .seq
      (rollbackPayloads_valid memory.payload_count kept restamped.valid restamped.phase
        nothing_behind) ?_
    rintro ⟨status, rolled⟩ later later_kept ⟨rolled_valid, complete⟩
    cases status with
    | invalid | conflict | io => exact .pure later_kept rolled_valid
    | ok =>
      have terminal : journalValid (rolled.remark .rolled_back rolled.payloads
          rolled.rollback_markers_present) = true :=
        journalValid_phase rolled_valid nofun
          (rolled_back_counts (markerParts rolled_valid) (complete rfl))
      refine .seq (persist_valid later_kept terminal) ?_
      rintro ⟨persisted, final⟩ last last_kept final_restamped
      cases persisted with
      | false | true => exact .pure last_kept final_restamped.valid

end Rollback

section Forward

variable {journal : TransactionJournal} {log : List TransactionJournal}

def CommittedBefore (journal : TransactionJournal) (position : Nat) : Prop :=
  ∀ index entry, index < position → journal.payloads[index]? = some entry →
    entry.committed = true

theorem CommittedBefore.extend {index : Nat} {entry : JournalPayload}
    (before : CommittedBefore journal index) (found : journal.payloads[index]? = some entry)
    (committed : entry.committed = true) : CommittedBefore journal (index + 1) := by
  intro position other prior other_found
  rcases Nat.lt_succ_iff_lt_or_eq.mp prior with earlier | rfl
  · exact before position other earlier other_found
  · obtain rfl := Option.some.inj (found.symm.trans other_found)
    exact committed

theorem commitOne_valid {index : Nat} {entry : JournalPayload} (all : AllValid log)
    (valid : journalValid journal = true) (phase : journal.phase = .commit)
    (before : CommittedBefore journal index) (found : journal.payloads[index]? = some entry) :
    Ensures replayDevice AllValid
      (fun answer _ => journalValid answer.2 = true ∧ (answer.1 = .ok → answer.2.phase = .commit ∧
        answer.2.batch = journal.batch ∧ answer.2.payload_count = journal.payload_count ∧
        CommittedBefore answer.2 (index + 1)))
      (commitOne journal index entry) log := by
  refine silent_valid (fun _ _ same => same) all fun answer => ?_
  cases answer with
  | conflict | io => exact .pure all ⟨valid, nofun⟩
  | ok =>
    refine .seq (persist_valid all (journalValid_commit_step valid phase before found)) ?_
    rintro ⟨persisted, memory⟩ after kept restamped
    cases persisted with
    | false => exact .pure kept ⟨restamped.valid, nofun⟩
    | true =>
      refine .pure kept ⟨restamped.valid, fun _ =>
        ⟨restamped.phase.trans phase, restamped.batch, ?_, ?_⟩⟩
      · rw [TransactionJournal.payload_count, restamped.payloads]
        simp [TransactionJournal.payload_count]
      · intro position other prior other_found
        rw [restamped.payloads, recount_payloads, setPayload_payloads,
          List.getElem?_set] at other_found
        split at other_found
        · split at other_found
          · rw [← Option.some.inj other_found]
          · cases other_found
        · exact before position other (by omega) other_found

/-- The commit loop keeps every persisted journal and the one in memory valid. -/
theorem commitPayloads_valid (remaining : Nat) (all : AllValid log)
    (valid : journalValid journal = true) (phase : journal.phase = .commit)
    (inside : remaining ≤ journal.payload_count)
    (before : CommittedBefore journal (journal.payload_count - remaining)) :
    Ensures replayDevice AllValid
      (fun answer _ => journalValid answer.2 = true ∧
        (answer.1 = .ok → answer.2.batch = journal.batch ∧
          CommittedBefore answer.2 answer.2.payload_count))
      (commitPayloads remaining journal) log := by
  induction remaining generalizing journal log with
  | zero => exact .pure all ⟨valid, fun _ => ⟨rfl, before⟩⟩
  | succ remaining induction =>
    have next : journal.payload_count - remaining =
        journal.payload_count - (remaining + 1) + 1 := by omega
    rw [commitPayloads]
    split
    · exact .pure all ⟨valid, by rintro ⟨⟩⟩
    · rename_i entry found
      split
      · rename_i committed
        refine induction all valid phase (by omega) ?_
        rw [next]
        exact before.extend found committed
      · refine .seq (commitOne_valid all valid phase before found) ?_
        rintro ⟨status, memory⟩ after kept ⟨memory_valid, outcome⟩
        cases status with
        | ok =>
          obtain ⟨memory_phase, batch_eq, count_eq, memory_before⟩ := outcome rfl
          dsimp only at memory_valid memory_phase batch_eq count_eq memory_before
          rw [← batch_eq]
          refine induction kept memory_valid memory_phase (by omega) ?_
          rw [count_eq, next]
          exact memory_before
        | invalid | conflict | io => exact .pure kept ⟨memory_valid, by rintro ⟨⟩⟩

theorem committed_counts {present : Bool} (parts : MarkerParts journal)
    (complete : CommittedBefore journal journal.payload_count) :
    phaseCountsValid (journal.remark .post_boot journal.payloads present) = true := by
  have committed : ∀ entry ∈ journal.payloads, entry.committed = true := by
    intro entry member
    obtain ⟨index, inside, element⟩ := List.getElem_of_mem member
    exact complete index entry inside (List.getElem?_eq_some_iff.mpr ⟨inside, element⟩)
  have none_rolled : journal.payloads.countP JournalPayload.rolled_back = 0 :=
    List.countP_eq_zero.mpr fun entry member rolled_back =>
      parts.apart entry member ⟨committed entry member, rolled_back⟩
  have all_committed : journal.payloads.countP JournalPayload.committed = journal.payloads.length :=
    List.countP_eq_length.mpr committed
  simp [phaseCountsValid, TransactionJournal.remark, recount, none_rolled, all_committed,
    TransactionJournal.payload_count]

theorem verifyTargets_valid (entries : List JournalPayload) (all : AllValid log) :
    Ensures replayDevice AllValid (fun _ _ => True) (verifyTargets entries) log := by
  induction entries with
  | nil => exact .pure all trivial
  | cons entry rest induction =>
    refine silent_valid (fun _ _ same => same) all fun answer => ?_
    cases answer with
    | «match» => exact induction
    | not_found | other | io => exact .pure all trivial

theorem resumeBatchForward_valid (all : AllValid log) (valid : journalValid journal = true) :
    Ensures replayDevice AllValid (fun answer _ => journalValid answer.2 = true)
      (resumeBatchForward journal) log := by
  unfold resumeBatchForward
  split
  · exact .pure all valid
  rename_i admitted
  have batch : journal.batch = true := by
    cases batch_eq : journal.batch <;> simp [batch_eq] at admitted ⊢
  split
  · exact .pure all valid
  split
  · exact .pure all valid
  rename_i forward
  have forward_phase : journal.phase = .stage ∨ journal.phase = .commit := by
    cases phase_eq : journal.phase <;> simp [phase_eq] at forward ⊢
  have unrolled := not_rolled_back_of_valid valid
    (forward_phase.elim Or.inl fun commit => .inr (.inl commit))
  have started : journalValid (journal.remark .commit journal.payloads
      journal.rollback_markers_present) = true :=
    journalValid_phase valid nofun (beq_iff_eq.mpr (List.countP_eq_zero.mpr unrolled))
  refine .seq (persist_valid all started) ?_
  rintro ⟨persisted, memory⟩ log' kept restamped
  cases persisted with
  | false => exact .pure kept restamped.valid
  | true =>
    have nothing_before : CommittedBefore memory (memory.payload_count - memory.payload_count) :=
      fun index _ prior => absurd prior (by omega)
    refine .seq
      (commitPayloads_valid memory.payload_count kept restamped.valid restamped.phase
        .refl nothing_before) ?_
    rintro ⟨status, committed⟩ later later_kept ⟨committed_valid, complete⟩
    cases status with
    | invalid | conflict | io => exact .pure later_kept committed_valid
    | ok =>
      refine .seq (verifyTargets_valid committed.payloads later_kept) ?_
      rintro status probed probed_kept -
      cases status with
      | invalid | conflict | io => exact .pure probed_kept committed_valid
      | ok =>
        obtain ⟨batch_eq, all_committed⟩ := complete rfl
        have booted : journalValid (committed.remark .post_boot committed.payloads
            committed.rollback_markers_present) = true :=
          journalValid_phase committed_valid
            (fun _ => batch_eq.trans (restamped.batch.trans batch))
            (committed_counts (markerParts committed_valid) all_committed)
        refine .seq (persist_valid probed_kept booted) ?_
        rintro ⟨persisted, final⟩ last last_kept final_restamped
        cases persisted with
        | false | true => exact .pure last_kept final_restamped.valid

end Forward

section Cleanup

variable {journal : TransactionJournal} {log : List TransactionJournal}

theorem expectContent_valid (path : Bytes) (size : UInt64) (checksum : UInt32)
    (all : AllValid log) :
    Ensures replayDevice AllValid (fun _ _ => True) (expectContent path size checksum) log := by
  refine silent_valid (fun _ _ same => same) all fun answer => ?_
  cases answer <;> exact .pure all trivial

theorem expectFile_valid (path : Bytes) (all : AllValid log) :
    Ensures replayDevice AllValid (fun _ _ => True) (expectFile path) log := by
  refine silent_valid (fun _ _ same => same) all fun answer => ?_
  cases answer <;> exact .pure all trivial

theorem expectAbsent_valid (path : Bytes) (all : AllValid log) :
    Ensures replayDevice AllValid (fun _ _ => True) (expectAbsent path) log := by
  refine silent_valid (fun _ _ same => same) all fun answer => ?_
  cases answer <;> exact .pure all trivial

variable (entry : JournalPayload)

theorem preflightBackup_valid (all : AllValid log) :
    Ensures replayDevice AllValid (fun _ _ => True) (preflightBackup entry) log := by
  unfold preflightBackup
  split
  · split
    · exact expectContent_valid _ _ _ all
    · exact expectFile_valid _ all
  · exact expectAbsent_valid _ all

theorem preflightReplaced_valid (all : AllValid log) :
    Ensures replayDevice AllValid (fun _ _ => True) (preflightReplaced entry) log := by
  unfold preflightReplaced
  split
  · exact .pure all trivial
  · refine .seq (expectAbsent_valid _ all) ?_
    rintro status after kept -
    cases status with
    | ok => exact preflightBackup_valid entry kept
    | invalid | conflict | io => exact .pure kept trivial

theorem preflightPayload_valid (all : AllValid log) :
    Ensures replayDevice AllValid (fun _ _ => True) (preflightPayload entry) log := by
  refine .seq (expectContent_valid _ _ _ all) ?_
  rintro status after kept -
  cases status with
  | ok => exact preflightReplaced_valid entry kept
  | invalid | conflict | io => exact .pure kept trivial

theorem preflightPayloads_valid (entries : List JournalPayload) (all : AllValid log) :
    Ensures replayDevice AllValid (fun _ _ => True) (preflightPayloads entries) log := by
  induction entries generalizing log with
  | nil => exact .pure all trivial
  | cons entry rest induction =>
    refine .seq (preflightPayload_valid entry all) ?_
    rintro status after kept -
    cases status with
    | ok => exact induction kept
    | invalid | conflict | io => exact .pure kept trivial

theorem cleanupPayloads_valid (entries : List JournalPayload) (all : AllValid log) :
    Ensures replayDevice AllValid (fun _ _ => True) (cleanupPayloads entries) log := by
  induction entries with
  | nil => exact .pure all trivial
  | cons entry rest induction =>
    rw [cleanupPayloads]
    split
    · exact induction
    · refine silent_valid (fun _ _ same => same) all fun answer => ?_
      cases answer with
      | ok => exact induction
      | conflict | io => exact .pure all trivial

theorem journalValid_cleaned (valid : journalValid journal = true)
    (applied : journal.phase = .applied) :
    journalValid { journal with phase := .cleanup, rollback_markers_present := true } = true := by
  have parts := markerParts valid
  have recounted : journal.remark .cleanup journal.payloads true =
      { journal with phase := .cleanup, rollback_markers_present := true } := by
    simp [TransactionJournal.remark, recount, parts.committed_count, parts.rollback_count]
  rw [← recounted]
  refine journalValid_phase valid nofun ?_
  rw [recounted]
  simpa [phaseCountsValid, applied, TransactionJournal.payload_count] using parts.phase

theorem cleanupToTerminal_valid (all : AllValid log) (valid : journalValid journal = true) :
    Ensures replayDevice AllValid (fun answer _ => journalValid answer.2 = true)
      (cleanupToTerminal journal) log := by
  unfold cleanupToTerminal
  split
  · exact .pure all valid
  split
  · exact .pure all valid
  split
  · exact .pure all valid
  rename_i reached
  have applied : journal.phase = .applied := by simpa using reached
  refine .seq (preflightPayloads_valid journal.payloads all) ?_
  rintro status probed probed_kept -
  cases status with
  | invalid | conflict | io => exact .pure probed_kept valid
  | ok =>
    refine .seq (cleanupPayloads_valid journal.payloads probed_kept) ?_
    rintro status cleaned cleaned_kept -
    cases status with
    | invalid | conflict | io => exact .pure cleaned_kept valid
    | ok =>
      refine .seq (persist_valid cleaned_kept (journalValid_cleaned valid applied)) ?_
      rintro ⟨persisted, final⟩ last last_kept restamped
      cases persisted with
      | false | true => exact .pure last_kept restamped.valid

end Cleanup

/-- What a journal handed to persist looks like: valid, with its markers in place, and accepted by
the serializer. -/
structure Persistable (journal : TransactionJournal) : Prop where
  valid : journalValid journal = true
  markers : MarkersPlaced journal
  counts : phaseCountsValid journal = true
  serialized : serializeJournal journal journal_max = some (journalText journal)

theorem Persistable.of_valid (valid : journalValid journal = true) :
    Persistable journal where
  valid := valid
  markers := (markerParts valid).placed
  counts := (markerParts valid).phase
  serialized := if_pos ⟨valid, journalText_length valid⟩

/-- The three replays of the recovery core. -/
inductive Replay
  | rollback
  | forward
  | cleanup

def Replay.program : Replay → TransactionJournal → Recovery (ReplayStatus × TransactionJournal)
  | .rollback => rollbackToTerminal
  | .forward => resumeBatchForward
  | .cleanup => cleanupToTerminal

/-- From a valid journal and with any answers of the callbacks, each replay hands only persistable
journals to persist, wherever it stops, and returns with a valid journal in memory. -/
theorem replay_persists_valid {replay : Replay} {journal : TransactionJournal}
    {outcome : Option (ReplayStatus × TransactionJournal)} {log : List TransactionJournal}
    (valid : journalValid journal = true)
    (execution : Execution replayDevice (replay.program journal) [] outcome log) :
    (∀ persisted ∈ log, Persistable persisted) ∧
      ∀ status memory, outcome = some (status, memory) → Persistable memory := by
  have start : AllValid [] := List.forall_mem_nil _
  have ensures : Ensures replayDevice AllValid (fun answer _ => journalValid answer.2 = true)
      (replay.program journal) [] := by
    cases replay with
    | rollback => exact rollbackToTerminal_valid start valid
    | forward => exact resumeBatchForward_valid start valid
    | cleanup => exact cleanupToTerminal_valid start valid
  obtain ⟨all, returned⟩ := ensures.sound execution
  exact ⟨fun persisted member => .of_valid (all persisted member),
    fun status memory finished => .of_valid (returned (status, memory) finished)⟩

theorem replay_persists_valid_sample : ∃ log,
    Execution replayDevice (Replay.forward.program sampleBatch) [] (some (.conflict,
        recount { sampleBatch with phase := .commit })) log ∧
      (∀ persisted ∈ log, Persistable persisted) := by
  have valid : journalValid sampleBatch = true := by decide +kernel
  have persisted : replayDevice (.persist (recount { sampleBatch with phase := .commit })) []
      (some ⟨0, 1⟩ : Option Stamp) [recount { sampleBatch with phase := .commit }] :=
    ⟨fun stamp same => Option.some.inj same ▸ ⟨by decide, by decide⟩, rfl⟩
  have refused (log : List TransactionJournal) (entry : JournalPayload) :
      replayDevice (.commitPayload entry) log MutationStatus.conflict log := rfl
  have execution : Execution replayDevice (Replay.forward.program sampleBatch) []
      (some (.conflict, recount { sampleBatch with phase := .commit }))
      [recount { sampleBatch with phase := .commit }] := by
    simp only [Replay.program, resumeBatchForward, valid]
    exact .call persisted (.call (refused _ _) (.done _ _))
  exact ⟨_, execution, (replay_persists_valid valid execution).1⟩

end R4OS.Update
