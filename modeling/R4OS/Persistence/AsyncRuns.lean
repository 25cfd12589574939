import R4OS.Persistence.AsyncHistory

/-!
# Runs of the asynchronous store

Every call takes steps of the histories only, whatever the environment answers, so every run of calls
has the properties of a history.
-/

namespace R4OS.Persistence

open Text

variable {environment : Environment} {world : World}

variable {after : World} {outcome : Outcome} {fuel : Nat}

/-- A world whose store and log are reachable. -/
def World.Reachable (world : World) : Prop := Reached world.store world.log

theorem World.Reachable.take (reachable : world.Reachable) {events : List Event}
    (log : after.log = world.log ++ events) (step : Step world.store events after.store) :
    after.Reachable := by
  rw [World.Reachable, log]
  exact reachable.step step

/-- Nothing waits. -/
def World.Empty (world : World) : Prop := ∀ kind, world.store.pending kind = none

/-- Choose the older of two slots. -/
theorem oldestPending_from (pending : FileKind → Option AsyncWriteJob) (kinds : List FileKind)
    (selected : Option FileKind) (filled : ∀ kind, selected = some kind → pending kind ≠ none) :
    let chosen := kinds.foldl
      (fun selected index =>
        match pending index with
        | none => selected
        | some candidate =>
          match selected.bind pending with
          | none => some index
          | some oldest => if candidate.sequence < oldest.sequence then some index else selected)
      selected
    (chosen = none → selected = none ∧ ∀ kind ∈ kinds, pending kind = none) ∧
      ∀ kind, chosen = some kind → pending kind ≠ none := by
  induction kinds generalizing selected with
  | nil => exact ⟨fun vacant => ⟨vacant, fun _ member => nomatch member⟩, filled⟩
  | cons index kinds induction =>
    rw [List.foldl_cons]
    cases waits : pending index with
    | none =>
      obtain ⟨vacant, found⟩ := induction selected filled
      refine ⟨fun none_found => ?_, found⟩
      obtain ⟨unselected, rest⟩ := vacant none_found
      exact ⟨unselected, List.forall_mem_cons.mpr ⟨waits, rest⟩⟩
    | some candidate =>
      have own (kind : FileKind) (same : some index = some kind) : pending kind ≠ none := by
        cases same
        rw [waits]
        exact Option.some_ne_none candidate
      cases held : selected.bind pending with
      | none =>
        obtain ⟨vacant, found⟩ := induction (some index) own
        exact ⟨fun none_found => absurd (vacant none_found).1 (Option.some_ne_none index), found⟩
      | some oldest =>
        have kept : selected ≠ none := by
          rintro rfl
          cases held
        dsimp only
        split
        · obtain ⟨vacant, found⟩ := induction (some index) own
          exact ⟨fun none_found => absurd (vacant none_found).1 (Option.some_ne_none index),
            found⟩
        · obtain ⟨vacant, found⟩ := induction selected filled
          exact ⟨fun none_found => absurd (vacant none_found).1 kept, found⟩

theorem oldestPending_eq_none {pending : FileKind → Option AsyncWriteJob}
    (vacant : oldestPending pending = none) (kind : FileKind) : pending kind = none := by
  have chosen := (oldestPending_from pending FileKind.all none (by rintro _ ⟨⟩)).1 vacant
  exact chosen.2 kind (by cases kind <;> decide)

theorem oldestPending_waits {pending : FileKind → Option AsyncWriteJob} {kind : FileKind}
    (found : oldestPending pending = some kind) : pending kind ≠ none :=
  (oldestPending_from pending FileKind.all none (by rintro _ ⟨⟩)).2 kind found

theorem takeOldestPending_eq_none (vacant : takeOldestPending world = none) : world.Empty := by
  unfold takeOldestPending at vacant
  split at vacant
  · next none_found => exact oldestPending_eq_none none_found
  · next kind found =>
      rw [Option.map_eq_none_iff] at vacant
      exact absurd vacant (oldestPending_waits found)

theorem takeOldestPending_eq_some {job : AsyncWriteJob} {taken : World}
    (found : takeOldestPending world = some (job, taken)) :
    ∃ kind, world.store.pending kind = some job ∧
      taken = { world with store := world.store.setPending kind none } := by
  unfold takeOldestPending at found
  split at found
  · cases found
  · next kind _ =>
      obtain ⟨waiting, waits, same⟩ := Option.map_eq_some_iff.mp found
      cases same
      exact ⟨kind, waits, rfl⟩

/-- What a poll leaves behind. -/
structure Polled (outcome : Outcome) (after : World) : Prop where
  reachable : after.Reachable
  outcome_eq : outcome = after.store.latched_failure
  empty : after.store.active = none → after.Empty

theorem startJob_cases (environment : Environment) (job : AsyncWriteJob) (world : World) :
    startJob environment job world =
        (none, { world.tick with
          store := { world.store with active := some job }
          log := world.log ++ [.started job] }) ∨
      ∃ fault, startJob environment job world = (some fault, world.tick) := by
  unfold startJob
  dsimp only
  split
  · exact .inl rfl
  · exact .inr ⟨_, rfl⟩

theorem latchFailure_eq (fault : BackendError) (free : world.store.active = none) :
    latchFailure fault world = { world with
      store := world.store.fail fault
      log := world.log ++ .latched fault :: world.store.pendingJobs.map Event.destroyed } := by
  have same : world.store.fail fault = { world.store with
      pending := fun _ => none, latched_failure := some fault } := by
    simp [AsyncStore.fail, free]
  rw [same, latchFailure, clearPending, List.append_assoc]
  rfl

variable (environment) in
theorem startOldest_polled (reachable : world.Reachable) (free : world.store.active = none)
    (unlatched : world.store.latched_failure = none) :
    Polled (startOldest environment world).1 (startOldest environment world).2 := by
  unfold startOldest
  split
  · next vacant => exact ⟨reachable, unlatched.symm, fun _ => takeOldestPending_eq_none vacant⟩
  · next job taken found =>
      obtain ⟨kind, waits, rfl⟩ := takeOldestPending_eq_some found
      obtain rfl := reachable.sound.slot_kind kind job waits
      rcases startJob_cases environment job
        { world with store := world.store.setPending job.kind none } with started | ⟨fault, refused⟩
      · rw [started]
        refine ⟨reachable.take rfl (.start free waits), unlatched.symm, fun none_active => ?_⟩
        cases none_active
      · rw [refused]
        dsimp only
        rw [latchFailure_eq fault]
        · refine ⟨reachable.take ?_ (.giveUp free waits fault), rfl, fun _ kind => rfl⟩
          simp [destroyJob, World.record, World.tick]
        · exact free

theorem asyncResultFault_eq_none {result : AsyncWriteResult}
    (written : asyncResultFault result = none) : result = .ok := by
  cases result <;> cases written
  rfl

variable (environment) in
theorem pollOne_polled (reachable : world.Reachable) :
    Polled (pollOne environment world).1 (pollOne environment world).2 := by
  unfold pollOne
  cases latched : world.store.latched_failure with
  | some fault =>
    have idle := heldJobs_eq_nil.mp (reachable.sound.latched_idle
      (by rw [latched]; exact Option.some_ne_none fault))
    exact ⟨reachable, latched.symm, fun _ => idle.2⟩
  | none =>
    cases runs : world.store.active with
    | none => exact startOldest_polled environment reachable runs latched
    | some job =>
      dsimp only
      split
      · refine ⟨reachable, latched.symm, fun vacant => ?_⟩
        rw [World.tick, runs] at vacant
        cases vacant
      generalize joinResult (environment world.clock) = result
      cases outcome : asyncResultFault result with
      | some fault =>
        dsimp only
        rw [latchFailure_eq fault rfl]
        refine ⟨reachable.take ?_ (.fail runs result fault), rfl, fun _ kind => rfl⟩
        simp only [finishJob, destroyJob, World.record, World.tick, List.append_assoc,
          List.cons_append, List.nil_append]
        rfl
      | none =>
        obtain rfl := asyncResultFault_eq_none outcome
        have finished : (finishJob job .ok world.tick).Reachable := by
          refine reachable.take ?_ (.complete runs)
          simp [finishJob, destroyJob, World.record, World.tick]
        exact startOldest_polled environment finished rfl latched

theorem createJob_cases (environment : Environment) (digest : Bytes) (kind : FileKind)
    (bytes : Bytes) (world : World) :
    createJob environment digest kind bytes world = (none, world.tick) ∨
      ∃ job sequence, job.address = world.store.allocations ∧ job.kind = kind ∧
        createJob environment digest kind bytes world =
          (some job,
            ⟨world.store.allocate sequence, world.clock + 1, world.log ++ [.created job]⟩) := by
  unfold createJob
  split
  · exact .inr ⟨_, _, rfl, rfl, rfl⟩
  · exact .inl rfl

/-- A reachable world after a call that reports what is latched. -/
structure Reports (outcome : Outcome) (after : World) : Prop where
  reachable : after.Reachable
  reports : ∀ fault, after.store.latched_failure = some fault → outcome = some fault

theorem Polled.toReports (polled : Polled outcome after) :
    Reports outcome after :=
  ⟨polled.reachable, fun _ latched => polled.outcome_eq.trans latched⟩

theorem writeAtomic_reports (reachable : world.Reachable) (digest : Bytes) (kind : FileKind)
    (bytes : Bytes) :
    Reports (writeAtomic environment digest kind bytes world).1
      (writeAtomic environment digest kind bytes world).2 := by
  have polled := pollOne_polled environment reachable
  unfold writeAtomic
  split
  · next fault after eq =>
      rw [eq] at polled
      exact polled.toReports
  next after eq =>
  rw [eq] at polled
  obtain ⟨reachable, unlatched, empty⟩ := polled
  dsimp only at reachable unlatched empty
  rw [← unlatched]
  dsimp only
  have silent {outcome : Outcome} {other : World} (reached : other.Reachable)
      (same : other.store.latched_failure = after.store.latched_failure) :
      Reports outcome other := by
    refine ⟨reached, fun fault latched => ?_⟩
    rw [same, ← unlatched] at latched
    cases latched
  split
  · exact silent reachable rfl
  rcases createJob_cases environment digest kind bytes after with
    refused | ⟨job, sequence, fresh, rfl, created⟩
  · rw [refused]
    exact silent reachable rfl
  rw [created]
  dsimp only
  split
  · next free =>
      have free : after.store.active = none := Option.isNone_iff_eq_none.mp free
      rcases startJob_cases environment job
        ⟨after.store.allocate sequence, after.clock + 1, after.log ++ [.created job]⟩ with
        started | ⟨fault, refused⟩
      · rw [started]
        refine silent (reachable.take ?_
          (.hand fresh sequence unlatched.symm free (empty free job.kind))) rfl
        simp [World.record, World.tick]
      · rw [refused]
        refine silent (reachable.take ?_ (.refuse fresh sequence)) rfl
        simp [destroyJob, World.record, World.tick]
  · cases waits : (after.store.allocate sequence).pending job.kind with
    | none =>
      refine silent (reachable.take ?_ (.queue fresh sequence unlatched.symm waits)) rfl
      simp
    | some older =>
      refine silent (reachable.take ?_ (.replace fresh sequence unlatched.symm waits)) rfl
      simp [destroyJob, World.record]

/-- A reachable world without jobs after a call that reports what is latched. -/
structure Settled (outcome : Outcome) (after : World) : Prop extends Reports outcome after where
  idle : after.store.heldJobs = []

theorem idle_iff (store : AsyncStore) : store.idle = true ↔ store.heldJobs = [] := by
  rw [AsyncStore.idle, AsyncStore.pendingCount, AsyncStore.heldJobs, Bool.and_eq_true,
    Option.isNone_iff_eq_none, beq_iff_eq, List.length_eq_zero_iff, List.append_eq_nil_iff,
    Option.toList_eq_nil_iff]

theorem Polled.idle {fault : BackendError} (polled : Polled (some fault) after) :
    after.store.heldJobs = [] :=
  polled.reachable.sound.latched_idle (by
    rw [← polled.outcome_eq]
    exact Option.some_ne_none fault)

theorem Polled.settled {fault : BackendError} (polled : Polled (some fault) after) :
    Settled (some fault) after :=
  ⟨polled.toReports, polled.idle⟩

theorem drain_settled (reachable : world.Reachable)
    (drained : drain environment fuel world = some (outcome, after)) :
    Settled outcome after ∧ outcome = after.store.latched_failure := by
  induction fuel generalizing world with
  | zero => cases drained
  | succ fuel induction =>
    rw [drain] at drained
    split at drained
    · next idle =>
        cases drained
        exact ⟨⟨⟨reachable, fun _ latched => latched⟩, (idle_iff _).mp idle⟩, rfl⟩
    next busy =>
    have unlatched : world.store.latched_failure = none := by
      by_contra latched
      exact busy ((idle_iff _).mpr (reachable.sound.latched_idle latched))
    generalize opening : (if world.store.active.isNone then startOldest environment world
      else (none, world)) = result at drained
    have opened : result.2.Reachable ∧ ∀ fault, result.1 = some fault →
        Settled (some fault) result.2 ∧ some fault = result.2.store.latched_failure := by
      split at opening
      · next free =>
          have spec := startOldest_polled environment reachable (Option.isNone_iff_eq_none.mp free)
            unlatched
          rw [opening] at spec
          refine ⟨spec.reachable, fun fault failed => ?_⟩
          rw [failed] at spec
          exact ⟨spec.settled, spec.outcome_eq⟩
      · subst opening
        exact ⟨reachable, nofun⟩
    rcases result with ⟨_ | fault, opened_world⟩
    · have spec := pollOne_polled environment opened.1
      dsimp only at drained
      generalize pollOne environment opened_world = result at drained spec
      rcases result with ⟨_ | fault, next⟩
      · exact induction spec.reachable drained
      · cases drained
        exact ⟨spec.settled, spec.outcome_eq⟩
    · cases drained
      exact opened.2 fault rfl

theorem acquire_reachable (reachable : world.Reachable) (digest : Bytes) (generation : UInt64) :
    (acquire environment digest generation world).2.Reachable := by
  unfold acquire
  split
  · exact reachable
  next idle =>
  have idle : world.store.heldJobs = [] := (idle_iff _).mp (by simpa using idle)
  split
  · exact reachable
  have opened : ({ world.tick with
      store := { world.store with latched_failure := none }
      log := world.log ++ [.acquired] } : World).Reachable := reachable.take rfl (.acquire idle)
  dsimp only
  split
  · exact opened
  split
  · exact opened
  · exact opened.take (List.append_nil _).symm (.lock _ _)

theorem releaseLock_cases (environment : Environment) (digest : Bytes) (generation : UInt64)
    (world : World) : ∃ lock_writer,
      (releaseLock environment digest generation world).2.store = { world.store with lock_writer } ∧
      (releaseLock environment digest generation world).2.log = world.log := by
  unfold releaseLock
  split
  · exact ⟨world.store.lock_writer, rfl, rfl⟩
  split
  · exact ⟨world.store.lock_writer, rfl, rfl⟩
  split
  · exact ⟨world.store.lock_writer, rfl, rfl⟩
  · exact ⟨none, rfl, rfl⟩

theorem clearPending_idle (idle : world.store.heldJobs = []) : clearPending world = world := by
  have vacant : (fun _ => none) = world.store.pending :=
    funext fun kind => ((heldJobs_eq_nil.mp idle).2 kind).symm
  have none_waits : world.store.pendingJobs = [] := (List.append_eq_nil_iff.mp idle).2
  rw [clearPending, vacant, none_waits, List.map_nil, List.append_nil]

theorem release_settled {digest : Bytes} {generation : UInt64} (reachable : world.Reachable)
    (released : release environment fuel digest generation world = some (outcome, after)) :
    Settled outcome after := by
  obtain ⟨⟨write_fault, drained⟩, drained_eq, same⟩ := Option.map_eq_some_iff.mp released
  obtain ⟨⟨⟨reachable, -⟩, idle⟩, fault_eq⟩ := drain_settled reachable drained_eq
  obtain ⟨lock_writer, store_eq, log_eq⟩ := releaseLock_cases environment digest generation drained
  have kept : (releaseLock environment digest generation drained).2.Reachable := by
    refine reachable.take (log_eq.trans (List.append_nil _).symm) ?_
    rw [store_eq]
    exact .lock _ _
  have still : (releaseLock environment digest generation drained).2.store.heldJobs = [] := by
    rw [store_eq]
    exact idle
  have latched_eq : (releaseLock environment digest generation drained).2.store.latched_failure =
      write_fault := by
    rw [store_eq, fault_eq]
  dsimp only at same
  rw [clearPending_idle still] at same
  obtain ⟨rfl, rfl⟩ := Prod.mk.inj same
  refine ⟨⟨kept, fun fault latched => ?_⟩, still⟩
  rw [latched_eq] at latched
  rw [latched]
  rfl

theorem perform_reachable {call : Call} (reachable : world.Reachable)
    (performed : call.perform environment fuel world = some after) : after.Reachable := by
  obtain ⟨⟨outcome, end_⟩, ran, rfl⟩ := Option.map_eq_some_iff.mp performed
  have returns (reported : Reports outcome end_)
      (drains : call = .drain → outcome = none → end_.store.latched_failure = none)
      (settles : call.settles = true → end_.store.heldJobs = []) :
      (end_.record [.returned call outcome]).Reachable :=
    reported.reachable.take rfl (.returned call outcome (fun _ => reported.reports) drains settles)
  cases call with
  | acquire digest generation =>
    obtain ⟨-, rfl⟩ := Prod.mk.inj (Option.some.inj ran)
    exact (acquire_reachable reachable digest generation).take rfl
      (.returned _ outcome (by rintro ⟨⟩) (by rintro ⟨⟩) (by rintro ⟨⟩))
  | writeAtomic digest kind bytes =>
    obtain ⟨rfl, rfl⟩ := Prod.mk.inj (Option.some.inj ran)
    exact returns (writeAtomic_reports reachable digest kind bytes) (by rintro ⟨⟩) (by rintro ⟨⟩)
  | poll =>
    obtain ⟨rfl, rfl⟩ := Prod.mk.inj (Option.some.inj ran)
    exact returns (pollOne_polled environment reachable).toReports (by rintro ⟨⟩) (by rintro ⟨⟩)
  | drain =>
    obtain ⟨settled, outcome_eq⟩ := drain_settled reachable ran
    exact returns settled.toReports (fun _ success => outcome_eq.symm.trans success)
      fun _ => settled.idle
  | release digest generation =>
    have settled := release_settled reachable ran
    exact returns settled.toReports (by rintro ⟨⟩) fun _ => settled.idle

/-- Perform calls one after the other. -/
def runCalls (environment : Environment) (fuel : Nat) (calls : List Call) : Option World :=
  calls.foldlM (Call.perform environment fuel) {}

theorem foldlM_perform_reachable {calls : List Call} (reachable : world.Reachable)
    (ran : calls.foldlM (Call.perform environment fuel) world = some after) : after.Reachable := by
  induction calls generalizing world with
  | nil => exact Option.some.inj ran ▸ reachable
  | cons call calls induction =>
    rw [List.foldlM_cons] at ran
    obtain ⟨next, performed, rest⟩ := Option.bind_eq_some_iff.mp ran
    exact induction (perform_reachable reachable performed) rest

/-- Nothing is lost or reordered without a reported failure. -/
structure Faithful (store : AsyncStore) (log : List Event) : Prop where
  /-- No job is started while another one is active. -/
  one_worker : log.foldlM followWorker none = some store.active
  /-- The worker sees the snapshots of a kind in the order of their acceptance. -/
  in_order : ∀ kind, (startedOf kind log).Sublist (acceptedOf kind log)
  /-- An accepted snapshot is handed over, waits, is replaced or is given up with a failure. -/
  skipped : ∀ job, .accepted job ∈ log → .started job ∉ log →
    store.pending job.kind = some job ∨ Replaced job log ∨ Dropped job log
  /-- Every call reports a latched failure up to the next acquisition. -/
  reported : ∀ before fault after, log = before ++ .latched fault :: after → Reported fault after
  /-- A successful drain has written the latest accepted snapshot of every kind. -/
  drained : ∀ before after, log = before ++ .returned .drain none :: after →
    ∀ kind job, (acceptedOf kind (session before)).getLast? = some job → .joined job .ok ∈ before
  /-- Every job is created once, and destroyed once when the store no longer holds it. -/
  destroyed : (createdJobs log).Nodup ∧
    (createdJobs log).Perm (destroyedJobs log ++ store.heldJobs)
  /-- No job outlives a drain or a release. -/
  settled : ∀ before call outcome after, log = before ++ .returned call outcome :: after →
    call.settles = true → (createdJobs before).Perm (destroyedJobs before)

/-- Every run of calls loses and reorders nothing, whatever the environment answers. -/
theorem asyncStore_faithful {calls : List Call} (ran : runCalls environment fuel calls = some world) :
    Faithful world.store world.log := by
  have fresh : World.Reachable {} := Reached.start
  have sound := Reached.sound (foldlM_perform_reachable fresh ran)
  constructor
  · exact sound.worker
  · intro kind
    exact (List.sublist_append_left _ _).trans (sound.order kind)
  · intro job accepted unstarted
    exact (sound.fate job accepted).resolve_left unstarted
  · intro before fault after split
    exact (sound.reported before fault after split).1
  · exact sound.drained
  · exact ⟨sound.distinct, sound.balance⟩
  · exact sound.settled

/-- A worker that is slow at first. -/
def sampleEnvironment : Environment := fun clock =>
  { thread_join := if clock < 6 then .timeout else .ok }

/-- Three snapshots of one kind and a drain. -/
def sampleCalls : List Call :=
  [.acquire [7] 1, .writeAtomic [7] .sram [1], .writeAtomic [7] .sram [2],
    .writeAtomic [7] .sram [3], .drain]

/-- The second of three snapshots is replaced, the other two are written. -/
theorem asyncStore_faithful_sample : ∃ world,
    runCalls sampleEnvironment 4 sampleCalls = some world ∧
      (startedOf .sram world.log).map AsyncWriteJob.bytes = [[1], [3]] ∧
      Faithful world.store world.log := by
  have written : (runCalls sampleEnvironment 4 sampleCalls).map
      (fun world => (startedOf .sram world.log).map AsyncWriteJob.bytes) = some [[1], [3]] := by
    decide
  obtain ⟨world, ran, started⟩ := Option.map_eq_some_iff.mp written
  exact ⟨world, ran, started, asyncStore_faithful ran⟩

end R4OS.Persistence
