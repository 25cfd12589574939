import R4OS.Update.Recovery

/-!
# Cleanup of an applied transaction

Cleanup rotates older backups away, which nothing can undo.  Two passes separate the decision from
the deletions: the first probes every payload of the package, the second hands each replaced payload
to one checked operation.  The log of calls shows that no deletion precedes a complete first pass.
-/

namespace R4OS.Update

open Crash Text

def expectContent (path : Bytes) (size : UInt64) (checksum : UInt32) : Recovery ReplayStatus := do
  match ← RecoveryIo.perform (.pathState path size checksum) with
  | .match => return .ok
  | .not_found | .other => return .conflict
  | .io => return .io

def expectFile (path : Bytes) : Recovery ReplayStatus := do
  match ← RecoveryIo.perform (.presence path) with
  | .file => return .ok
  | .not_found | .other => return .conflict
  | .io => return .io

def expectAbsent (path : Bytes) : Recovery ReplayStatus := do
  match ← RecoveryIo.perform (.presence path) with
  | .not_found => return .ok
  | .file | .other => return .conflict
  | .io => return .io

/-- Check the current backup of a replaced payload. -/
def preflightBackup (entry : JournalPayload) : Recovery ReplayStatus :=
  if entry.target_existed then
    if entry.old_known then expectContent entry.backupText entry.old_size entry.old_checksum
    else expectFile entry.backupText
  else expectAbsent entry.backupText

/-- Check stage and backup of a payload whose target already matched. -/
def preflightReplaced (entry : JournalPayload) : Recovery ReplayStatus :=
  if !entry.replace_required then return .ok
  else do
    match ← expectAbsent entry.stageText with
    | .ok => preflightBackup entry
    | failed => return failed

/-- Re-establish that one payload is applied. -/
def preflightPayload (entry : JournalPayload) : Recovery ReplayStatus := do
  match ← expectContent entry.targetText entry.size entry.checksum with
  | .ok => preflightReplaced entry
  | failed => return failed

/-- Re-establish that every payload is applied. -/
def preflightPayloads : List JournalPayload → Recovery ReplayStatus
  | [] => return .ok
  | entry :: rest => do
      match ← preflightPayload entry with
      | .ok => preflightPayloads rest
      | failed => return failed

/-- Clean up the replaced payloads in order. -/
def cleanupPayloads : List JournalPayload → Recovery ReplayStatus
  | [] => return .ok
  | entry :: rest =>
    if !entry.replace_required then cleanupPayloads rest
    else do
      match ← RecoveryIo.perform (.cleanupPayload entry) with
      | .ok => cleanupPayloads rest
      | .conflict => return .conflict
      | .io => return .io

/-- Perform the cleanup after a transaction was applied. -/
def cleanupToTerminal (journal : TransactionJournal) :
    Recovery (ReplayStatus × TransactionJournal) := do
  if !journalValid journal then return (.invalid, journal)
  else if journal.phase == .cleanup then return (.ok, journal)
  else if journal.phase != .applied then return (.invalid, journal)
  else
    match ← preflightPayloads journal.payloads with
    | .ok =>
      match ← cleanupPayloads journal.payloads with
      | .ok =>
        match ← persist
            { journal with phase := .cleanup, rollback_markers_present := true } with
        | (true, journal) => return (.ok, journal)
        | (false, journal) => return (.io, journal)
      | failed => return (failed, journal)
    | failed => return (failed, journal)

structure ProbedDisk where
  pathState : Bytes → UInt64 → UInt32 → PathState
  presence : Bytes → PresenceState

/-- A call with its answer. -/
abbrev RecoveryCall := (operation : RecoveryIo) × RecoveryIo.Answer operation

/-- Probes report the disk, every other call answers anything, and all calls are logged. -/
def probedDevice (disk : ProbedDisk) : Device RecoveryIo.Answer (List RecoveryCall)
  | .pathState path size checksum, before, answer, after =>
    answer = disk.pathState path size checksum ∧
      after = before ++ [⟨.pathState path size checksum, answer⟩]
  | .presence path, before, answer, after =>
    answer = disk.presence path ∧ after = before ++ [⟨.presence path, answer⟩]
  | .rollbackPayload entry, before, answer, after =>
    after = before ++ [⟨.rollbackPayload entry, answer⟩]
  | .commitPayload entry, before, answer, after =>
    after = before ++ [⟨.commitPayload entry, answer⟩]
  | .cleanupPayload entry, before, answer, after =>
    after = before ++ [⟨.cleanupPayload entry, answer⟩]
  | .persist journal, before, answer, after => after = before ++ [⟨.persist journal, answer⟩]

def cleanupCall : RecoveryCall → Option (JournalPayload × MutationStatus)
  | ⟨.cleanupPayload entry, answer⟩ => some (entry, answer)
  | _ => none

def persistCall : RecoveryCall → Option TransactionJournal
  | ⟨.persist journal, _⟩ => some journal
  | _ => none

def cleanupCalls (log : List RecoveryCall) : List (JournalPayload × MutationStatus) :=
  log.filterMap cleanupCall

def persistCalls (log : List RecoveryCall) : List TransactionJournal := log.filterMap persistCall

/-- A log without deletions and without persisted journals. -/
def OnlyProbes (log : List RecoveryCall) : Prop := cleanupCalls log = [] ∧ persistCalls log = []

/-- Whether the current backup of a payload is what the update left behind. -/
def BackupApplied (disk : ProbedDisk) (entry : JournalPayload) : Prop :=
  if entry.target_existed then
    if entry.old_known then
      disk.pathState entry.backupText entry.old_size entry.old_checksum = .match
    else disk.presence entry.backupText = .file
  else disk.presence entry.backupText = .not_found

/-- Whether target, stage and current backup of a payload are as an applied update leaves them. -/
def PayloadApplied (disk : ProbedDisk) (entry : JournalPayload) : Prop :=
  disk.pathState entry.targetText entry.size entry.checksum = .match ∧
    (entry.replace_required →
      disk.presence entry.stageText = .not_found ∧ BackupApplied disk entry)

def PackageApplied (disk : ProbedDisk) (journal : TransactionJournal) : Prop :=
  ∀ entry ∈ journal.payloads, PayloadApplied disk entry

/-- The payloads that cleanup has to treat. -/
def replacedPayloads (entries : List JournalPayload) : List JournalPayload :=
  entries.filter JournalPayload.replace_required

/-- The calls treat the entries in order, each once, and end after the first failure. -/
def UpToFailure : List JournalPayload → List (JournalPayload × MutationStatus) → Prop
  | [], calls => calls = []
  | entry :: rest, calls =>
    ∃ status more, calls = (entry, status) :: more ∧
      if status = .ok then UpToFailure rest more else more = []

section Log

variable {log : List RecoveryCall} {call : RecoveryCall}

theorem cleanupCalls_append (log more : List RecoveryCall) :
    cleanupCalls (log ++ more) = cleanupCalls log ++ cleanupCalls more :=
  List.filterMap_append

theorem persistCalls_append (log more : List RecoveryCall) :
    persistCalls (log ++ more) = persistCalls log ++ persistCalls more :=
  List.filterMap_append

theorem OnlyProbes.probe (quiet : OnlyProbes log) (no_cleanup : cleanupCall call = none)
    (no_persist : persistCall call = none) : OnlyProbes (log ++ [call]) := by
  constructor
  · rw [cleanupCalls_append, quiet.1]
    simp [cleanupCalls, no_cleanup]
  · rw [persistCalls_append, quiet.2]
    simp [persistCalls, no_persist]

end Log

section Preflight

variable {disk : ProbedDisk} {log : List RecoveryCall}

/-- What a probing program guarantees: it only probes, and `ok` tells that the fact holds. -/
abbrev Probing (disk : ProbedDisk) (fact : Prop) (program : Recovery ReplayStatus)
    (log : List RecoveryCall) : Prop :=
  Ensures (probedDevice disk) OnlyProbes (fun status _ => status = .ok ↔ fact) program log

theorem expectContent_probing (path : Bytes) (size : UInt64) (checksum : UInt32)
    (quiet : OnlyProbes log) :
    Probing disk (disk.pathState path size checksum = .match) (expectContent path size checksum)
      log := by
  refine .perform_bind quiet ?_
  rintro answer after ⟨found, rfl⟩
  rw [← found]
  cases answer with
  | «match» | not_found | other | io => exact .pure (quiet.probe rfl rfl) (by simp)

theorem expectFile_probing (path : Bytes) (quiet : OnlyProbes log) :
    Probing disk (disk.presence path = .file) (expectFile path) log := by
  refine .perform_bind quiet ?_
  rintro answer after ⟨found, rfl⟩
  rw [← found]
  cases answer with
  | file | other | not_found | io => exact .pure (quiet.probe rfl rfl) (by simp)

theorem expectAbsent_probing (path : Bytes) (quiet : OnlyProbes log) :
    Probing disk (disk.presence path = .not_found) (expectAbsent path) log := by
  refine .perform_bind quiet ?_
  rintro answer after ⟨found, rfl⟩
  rw [← found]
  cases answer with
  | file | other | not_found | io => exact .pure (quiet.probe rfl rfl) (by simp)

theorem preflightBackup_probing (entry : JournalPayload) (quiet : OnlyProbes log) :
    Probing disk (BackupApplied disk entry) (preflightBackup entry) log := by
  unfold preflightBackup BackupApplied
  split
  · split
    · exact expectContent_probing _ _ _ quiet
    · exact expectFile_probing _ quiet
  · exact expectAbsent_probing _ quiet

theorem Probing.and {first second : Prop} {program rest : Recovery ReplayStatus}
    (probing : Probing disk first program log)
    (continued : ∀ after, OnlyProbes after → Probing disk second rest after) :
    Probing disk (first ∧ second)
      (program >>= fun status => match status with | .ok => rest | failed => pure failed) log := by
  refine .seq probing ?_
  intro status after quiet outcome
  cases status with
  | ok =>
    refine (continued after quiet).mono (fun _ kept => kept) fun status _ _ holds => ?_
    rw [holds, and_iff_right (outcome.mp rfl)]
  | invalid | conflict | io =>
    exact .pure quiet ⟨nofun, fun holds => nomatch outcome.mpr holds.1⟩

theorem preflightPayload_probing (entry : JournalPayload) (quiet : OnlyProbes log) :
    Probing disk (PayloadApplied disk entry) (preflightPayload entry) log := by
  refine Probing.and (expectContent_probing _ _ _ quiet) fun after after_quiet => ?_
  unfold preflightReplaced
  split
  · rename_i kept
    exact .pure after_quiet
      (by simpa using fun required => absurd required (by simpa using kept))
  · rename_i required
    have replaced : entry.replace_required = true := by simpa using required
    have absent : Probing disk (disk.presence entry.stageText = .not_found)
        (expectAbsent entry.stageText) after := expectAbsent_probing _ after_quiet
    have both := Probing.and absent
      fun later later_quiet => preflightBackup_probing entry later_quiet
    exact both.mono (fun _ kept => kept) fun status _ _ holds => by simpa [replaced] using holds

/-- The first pass only probes, and succeeds exactly on an applied package. -/
theorem preflightPayloads_probing (entries : List JournalPayload) (quiet : OnlyProbes log) :
    Probing disk (∀ entry ∈ entries, PayloadApplied disk entry) (preflightPayloads entries)
      log := by
  induction entries generalizing log with
  | nil => exact .pure quiet (by simp)
  | cons entry rest induction =>
    simp only [List.forall_mem_cons]
    exact Probing.and (preflightPayload_probing entry quiet) fun after after_quiet =>
      induction after_quiet

end Preflight

section Cleanup

variable {disk : ProbedDisk} {log : List RecoveryCall}

theorem cleanupPayloads_ensures (entries : List JournalPayload) (always : List RecoveryCall → Prop)
    (kept : ∀ more, persistCalls more = persistCalls log → always more)
    (start : always log) :
    Ensures (probedDevice disk) always
      (fun status after => persistCalls after = persistCalls log ∧
        ∃ calls, cleanupCalls after = cleanupCalls log ++ calls ∧
          UpToFailure (replacedPayloads entries) calls ∧
          (status = .ok ↔ ∀ call ∈ calls, call.2 = .ok))
      (cleanupPayloads entries) log := by
  induction entries generalizing log with
  | nil => exact .pure start ⟨rfl, [], by simp, rfl, by simp⟩
  | cons entry rest induction =>
    rw [cleanupPayloads]
    split
    · rename_i untouched
      have skipped : replacedPayloads (entry :: rest) = replacedPayloads rest :=
        List.filter_cons_of_neg (by simpa using untouched)
      rw [skipped]
      exact induction kept start
    · rename_i required
      have treated : replacedPayloads (entry :: rest) = entry :: replacedPayloads rest :=
        List.filter_cons_of_pos (by simpa using required)
      rw [treated]
      refine .perform_bind start ?_
      rintro answer after rfl
      have persisted : persistCalls (log ++ [⟨.cleanupPayload entry, answer⟩]) =
          persistCalls log := by simp [persistCalls, persistCall]
      have cleaned : cleanupCalls (log ++ [⟨.cleanupPayload entry, answer⟩]) =
          cleanupCalls log ++ [(entry, answer)] := by simp [cleanupCalls, cleanupCall]
      have still := kept _ persisted
      cases answer with
      | ok =>
        refine (induction (fun more same => kept more (same.trans persisted)) still).mono
          (fun _ kept => kept) ?_
        rintro status after - ⟨same, calls, extended, upTo, ok_iff⟩
        refine ⟨same.trans persisted, (entry, .ok) :: calls, ?_, ⟨.ok, calls, rfl, ?_⟩, ?_⟩
        · rw [extended, cleaned, List.append_assoc, List.singleton_append]
        · simpa using upTo
        · simpa using ok_iff
      | conflict =>
        exact .pure still
          ⟨persisted, [(entry, .conflict)], cleaned, ⟨.conflict, [], rfl, by simp⟩, by simp⟩
      | io =>
        exact .pure still
          ⟨persisted, [(entry, .io)], cleaned, ⟨.io, [], rfl, by simp⟩, by simp⟩

end Cleanup

theorem UpToFailure.all_ok {entries : List JournalPayload}
    {calls : List (JournalPayload × MutationStatus)} (upTo : UpToFailure entries calls)
    (ok : ∀ call ∈ calls, call.2 = .ok) : calls = entries.map fun entry => (entry, .ok) := by
  induction entries generalizing calls with
  | nil => exact upTo
  | cons entry rest induction =>
    obtain ⟨status, more, rfl, continued⟩ := upTo
    obtain ⟨rfl, more_ok⟩ := List.forall_mem_cons.mp ok
    rw [if_pos rfl] at continued
    rw [List.map_cons, ← induction continued more_ok]

/-- What a log may show before an execution of the routine ends: calls other than probes need an
applied package. -/
def NothingBeforeApplied (disk : ProbedDisk) (journal : TransactionJournal)
    (log : List RecoveryCall) : Prop :=
  OnlyProbes log ∨ PackageApplied disk journal

/-- Cleanup of a package: without the applied state nothing is deleted or persisted, with it the
replaced payloads are treated once and in order up to the first failure, and the phase becomes
`cleanup` exactly when all of them answered `ok`. -/
structure DeletesOnlyApplied (disk : ProbedDisk) (journal after : TransactionJournal)
    (log : List RecoveryCall) : Prop where
  refused : ¬ PackageApplied disk journal → OnlyProbes log ∧ after = journal
  treated : PackageApplied disk journal →
    UpToFailure (replacedPayloads journal.payloads) (cleanupCalls log)
  finished : after.phase = .cleanup ↔ PackageApplied disk journal ∧
    cleanupCalls log = (replacedPayloads journal.payloads).map fun entry => (entry, .ok)
  persisted : persistCalls log ≠ [] → after.phase = .cleanup

section Terminal

variable {disk : ProbedDisk} {journal : TransactionJournal}

theorem OnlyProbes.nil : OnlyProbes [] := ⟨rfl, rfl⟩

/-- The routine outside its phase calls nothing. -/
theorem cleanupToTerminal_idle (idle : ¬ (journalValid journal = true ∧ journal.phase = .applied)) :
    cleanupToTerminal journal =
      pure (if journalValid journal ∧ journal.phase = .cleanup then .ok else .invalid,
        journal) := by
  unfold cleanupToTerminal
  by_cases valid : journalValid journal = true
  · have not_applied : journal.phase ≠ .applied := fun applied => idle ⟨valid, applied⟩
    by_cases done : journal.phase = .cleanup <;> simp [valid, done, not_applied]
  · simp [valid]

theorem cleanupToTerminal_applied (valid : journalValid journal = true)
    (applied : journal.phase = .applied) :
    Ensures (probedDevice disk) (NothingBeforeApplied disk journal)
      (fun answer log => DeletesOnlyApplied disk journal answer.2 log)
      (cleanupToTerminal journal) [] := by
  unfold cleanupToTerminal
  simp only [valid, applied]
  refine .seq ((preflightPayloads_probing journal.payloads OnlyProbes.nil).mono
    (fun log quiet => Or.inl quiet) (fun status log quiet holds => And.intro quiet holds)) ?_
  rintro status log - ⟨quiet, holds⟩
  have kept_phase : journal.phase ≠ .cleanup := by simp [applied]
  have refuses (failed : ¬ PackageApplied disk journal) :
      DeletesOnlyApplied disk journal journal log :=
    { refused := fun _ => ⟨quiet, rfl⟩
      treated := fun all => absurd all failed
      finished := ⟨fun phase_eq => absurd phase_eq kept_phase, fun all => absurd all.1 failed⟩
      persisted := fun some_persist => absurd quiet.2 some_persist }
  cases status with
  | ok =>
    have all : PackageApplied disk journal := holds.mp rfl
    refine .seq (cleanupPayloads_ensures journal.payloads _ (fun _ _ => Or.inr all)
      (Or.inr all)) ?_
    rintro status later - ⟨same, calls, extended, upTo, ok_iff⟩
    rw [quiet.1, List.nil_append] at extended
    subst extended
    have unpersisted : persistCalls later = [] := same.trans quiet.2
    have stops (failed : ¬ ∀ call ∈ cleanupCalls later, call.2 = .ok) :
        DeletesOnlyApplied disk journal journal later :=
      { refused := fun missing => absurd all missing
        treated := fun _ => upTo
        finished := by
          refine ⟨fun phase_eq => absurd phase_eq kept_phase, fun complete => absurd ?_ failed⟩
          rw [complete.2]
          simp
        persisted := fun some_persist => absurd unpersisted some_persist }
    cases status with
    | ok =>
      have complete := upTo.all_ok (ok_iff.mp rfl)
      refine .perform_bind (Or.inr all) ?_
      rintro answer final rfl
      have same_calls : cleanupCalls (later ++ [⟨.persist { journal with
          phase := .cleanup, rollback_markers_present := true }, answer⟩]) =
          cleanupCalls later := by simp [cleanupCalls, cleanupCall]
      have cleaned (memory : TransactionJournal) (phase_eq : memory.phase = .cleanup) :
          DeletesOnlyApplied disk journal memory (later ++ [⟨.persist { journal with
            phase := .cleanup, rollback_markers_present := true }, answer⟩]) :=
        { refused := fun missing => absurd all missing
          treated := fun _ => same_calls ▸ upTo
          finished := ⟨fun _ => ⟨all, same_calls.trans complete⟩, fun _ => phase_eq⟩
          persisted := fun _ => phase_eq }
      cases answer with
      | some stamp | none => exact .pure (Or.inr all) (cleaned _ rfl)
    | invalid | conflict | io =>
      exact .pure (Or.inr all) (stops fun ok => nomatch ok_iff.mpr ok)
  | invalid | conflict | io =>
    exact .pure (Or.inl quiet) (refuses fun all => nomatch holds.mpr all)

end Terminal

/-- Cleanup of any journal on any disk, wherever it stops: outside the applied phase it calls
nothing and leaves the journal alone; in that phase it deletes only from an applied package. -/
theorem cleanup_deletes_only_applied {disk : ProbedDisk} {journal : TransactionJournal}
    {outcome : Option (ReplayStatus × TransactionJournal)} {log : List RecoveryCall}
    (execution : Execution (probedDevice disk) (cleanupToTerminal journal) [] outcome log) :
    (journalValid journal = true ∧ journal.phase = .applied →
      (OnlyProbes log ∨ PackageApplied disk journal) ∧
      ∀ status after, outcome = some (status, after) →
        DeletesOnlyApplied disk journal after log) ∧
    (¬ (journalValid journal = true ∧ journal.phase = .applied) →
      log = [] ∧ ∀ status after, outcome = some (status, after) → after = journal) := by
  constructor
  · rintro ⟨valid, applied⟩
    obtain ⟨always, returned⟩ := (cleanupToTerminal_applied valid applied).sound execution
    exact ⟨always, fun status after finished => returned (status, after) finished⟩
  · intro idle
    rw [cleanupToTerminal_idle idle] at execution
    cases execution with
    | done result world =>
      refine ⟨rfl, fun status after finished => ?_⟩
      exact (congrArg Prod.snd (Option.some.inj finished)).symm
    | crash program world => exact ⟨rfl, by simp⟩

/-- The sample batch after all its payloads were committed. -/
def sampleApplied : TransactionJournal :=
  { sampleBatch with
    phase := .applied
    committed_count := 1
    payloads := [{ samplePayload with committed := true }] }

/-- A disk whose files are the new ones, with the old content in the backups and no stage left. -/
def appliedDisk : ProbedDisk where
  pathState _ _ _ := .match
  presence _ := .not_found

theorem cleanup_deletes_only_applied_sample : ∃ log,
    Execution (probedDevice appliedDisk) (cleanupToTerminal sampleApplied) []
        (some (.conflict, sampleApplied)) log ∧
      DeletesOnlyApplied appliedDisk sampleApplied sampleApplied log := by
  have valid : journalValid sampleApplied = true := by decide +kernel
  have execution : ∃ log, Execution (probedDevice appliedDisk) (cleanupToTerminal sampleApplied) []
      (some (.conflict, sampleApplied)) log := by
    have refused (log : List RecoveryCall) (entry : JournalPayload) :
        probedDevice appliedDisk (.cleanupPayload entry) log MutationStatus.conflict
          (log ++ [⟨.cleanupPayload entry, MutationStatus.conflict⟩]) := rfl
    simp only [cleanupToTerminal, valid]
    exact ⟨_, .call ⟨rfl, rfl⟩ (.call ⟨rfl, rfl⟩ (.call ⟨rfl, rfl⟩
      (.call (refused _ _) (.done _ _))))⟩
  obtain ⟨log, execution⟩ := execution
  exact ⟨log, execution, ((cleanup_deletes_only_applied execution).1 ⟨valid, rfl⟩).2 _ _ rfl⟩

/-- The sample batch after its cleanup. -/
def sampleCleaned : TransactionJournal := { sampleApplied with phase := .cleanup }

/-- A journal that cleanup has already finished with is left alone, although its package is applied
and holds a replaced payload. -/
theorem finished_cleanup_treats_nothing :
    ∃ log, journalValid sampleCleaned = true ∧
      Execution (probedDevice appliedDisk) (cleanupToTerminal sampleCleaned) []
        (some (.ok, sampleCleaned)) log ∧
      PackageApplied appliedDisk sampleCleaned ∧
      ¬ UpToFailure (replacedPayloads sampleCleaned.payloads) (cleanupCalls log) := by
  have valid : journalValid sampleCleaned = true := by decide +kernel
  have idle : ¬ (journalValid sampleCleaned = true ∧ sampleCleaned.phase = .applied) := by
    rintro ⟨-, applied⟩
    cases applied
  have all : PackageApplied appliedDisk sampleCleaned := by
    intro entry member
    obtain rfl := List.mem_singleton.mp member
    exact ⟨rfl, fun _ => ⟨rfl, rfl⟩⟩
  refine ⟨[], valid, ?_, all, ?_⟩
  · rw [cleanupToTerminal_idle idle, if_pos ⟨valid, rfl⟩]
    exact .done _ _
  · rintro ⟨status, more, equality, -⟩
    cases equality

end R4OS.Update
