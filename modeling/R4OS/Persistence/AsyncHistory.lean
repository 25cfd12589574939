import R4OS.Persistence.AsyncStore
import Mathlib.Data.List.Perm.Basic

/-!
# Histories of the asynchronous store

What the store may do with its jobs in one step, and what therefore holds of every history: one
worker at a time, snapshots of a kind in the order of their acceptance, no snapshot lost without a
replacement or a reported failure, and every job destroyed once.
-/

namespace R4OS.Persistence

open Text

def Event.creation : Event → Option AsyncWriteJob
  | .created job => some job
  | _ => none

def Event.destruction : Event → Option AsyncWriteJob
  | .destroyed job => some job
  | _ => none

def Event.acceptance : Event → Option AsyncWriteJob
  | .accepted job => some job
  | _ => none

/-- The job that an event hands to a worker. -/
def Event.start : Event → Option AsyncWriteJob
  | .started job => some job
  | _ => none

def createdJobs (log : List Event) : List AsyncWriteJob := log.filterMap Event.creation

def destroyedJobs (log : List Event) : List AsyncWriteJob := log.filterMap Event.destruction

def acceptedOf (kind : FileKind) (log : List Event) : List AsyncWriteJob :=
  (log.filterMap Event.acceptance).filter fun job => job.kind = kind

/-- The snapshots of a kind that were handed to a worker. -/
def startedOf (kind : FileKind) (log : List Event) : List AsyncWriteJob :=
  (log.filterMap Event.start).filter fun job => job.kind = kind

/-- Follow the worker, as long as no second one is started. -/
def followWorker : Option AsyncWriteJob → Event → Option (Option AsyncWriteJob)
  | none, .started job => some (some job)
  | some _, .started _ => none
  | running, .joined job _ => if running = some job then some none else none
  | running, _ => some running

/-- A later accepted snapshot of the same kind took the place of a waiting one. -/
def Replaced (job : AsyncWriteJob) (log : List Event) : Prop :=
  ∃ newer before after, log = before ++ .replaced job newer :: after ∧ .accepted job ∈ before ∧
    .accepted newer ∈ after ∧ newer.kind = job.kind

/-- A failure was latched after a snapshot had been accepted. -/
def Dropped (job : AsyncWriteJob) (log : List Event) : Prop :=
  ∃ before fault after, log = before ++ .latched fault :: after ∧ .accepted job ∈ before

/-- Calls that report a latched failure. -/
def Call.reports : Call → Bool
  | .acquire _ _ => false
  | _ => true

/-- Calls that wait for all jobs. -/
def Call.settles : Call → Bool
  | .drain | .release _ _ => true
  | _ => false

/-- Every call up to the next acquisition reports a fault. -/
def Reported (fault : BackendError) (log : List Event) : Prop :=
  ∀ call outcome, .returned call outcome ∈ log.takeWhile (fun event => event ≠ .acquired) →
    call.reports = true → outcome = some fault

/-- The history since the last acquisition. -/
def session (log : List Event) : List Event := log.rtakeWhile fun event => event ≠ .acquired

def AsyncStore.heldJobs (store : AsyncStore) : List AsyncWriteJob :=
  store.active.toList ++ store.pendingJobs

def AsyncStore.allocate (store : AsyncStore) (sequence : UInt64) : AsyncStore :=
  { store with allocations := store.allocations + 1, next_sequence := sequence }

/-- The store after a failure. -/
def AsyncStore.fail (store : AsyncStore) (fault : BackendError) : AsyncStore :=
  { store with active := none, pending := fun _ => none, latched_failure := some fault }

/-- The store with another content of a slot. -/
def AsyncStore.setPending (store : AsyncStore) (kind : FileKind) (job : Option AsyncWriteJob) :
    AsyncStore :=
  { store with pending := Function.update store.pending kind job }

/-- What the store may do, and what the log shows of it. -/
inductive Step : AsyncStore → List Event → AsyncStore → Prop
  | lock (store : AsyncStore) (lock_writer : Option StoreLock) :
      Step store [] { store with lock_writer }
  | acquire {store : AsyncStore} (idle : store.heldJobs = []) :
      Step store [.acquired] { store with latched_failure := none }
  | refuse {store : AsyncStore} {job : AsyncWriteJob} (fresh : job.address = store.allocations)
      (sequence : UInt64) :
      Step store [.created job, .destroyed job] (store.allocate sequence)
  | hand {store : AsyncStore} {job : AsyncWriteJob} (fresh : job.address = store.allocations)
      (sequence : UInt64) (unlatched : store.latched_failure = none) (free : store.active = none)
      (vacant : store.pending job.kind = none) :
      Step store [.created job, .started job, .accepted job]
        { store.allocate sequence with active := some job }
  | queue {store : AsyncStore} {job : AsyncWriteJob} (fresh : job.address = store.allocations)
      (sequence : UInt64) (unlatched : store.latched_failure = none)
      (vacant : store.pending job.kind = none) :
      Step store [.created job, .accepted job]
        ((store.allocate sequence).setPending job.kind (some job))
  | replace {store : AsyncStore} {job older : AsyncWriteJob}
      (fresh : job.address = store.allocations) (sequence : UInt64)
      (unlatched : store.latched_failure = none) (waits : store.pending job.kind = some older) :
      Step store [.created job, .replaced older job, .destroyed older, .accepted job]
        ((store.allocate sequence).setPending job.kind (some job))
  | start {store : AsyncStore} {job : AsyncWriteJob} (free : store.active = none)
      (waits : store.pending job.kind = some job) :
      Step store [.started job] { store.setPending job.kind none with active := some job }
  | complete {store : AsyncStore} {job : AsyncWriteJob} (runs : store.active = some job) :
      Step store [.joined job .ok, .destroyed job] { store with active := none }
  | fail {store : AsyncStore} {job : AsyncWriteJob} (runs : store.active = some job)
      (result : AsyncWriteResult) (fault : BackendError) :
      Step store (.joined job result :: .destroyed job :: .latched fault ::
        store.pendingJobs.map Event.destroyed) (store.fail fault)
  | giveUp {store : AsyncStore} {job : AsyncWriteJob} (free : store.active = none)
      (waits : store.pending job.kind = some job) (fault : BackendError) :
      Step store (.destroyed job :: .latched fault ::
        (store.setPending job.kind none).pendingJobs.map Event.destroyed) (store.fail fault)
  | returned {store : AsyncStore} (call : Call) (outcome : Outcome)
      (reports : call.reports = true → ∀ fault, store.latched_failure = some fault →
        outcome = some fault)
      (drains : call = .drain → outcome = none → store.latched_failure = none)
      (settles : call.settles = true → store.heldJobs = []) :
      Step store [.returned call outcome] store

/-- Stores and their histories. -/
inductive Reached : AsyncStore → List Event → Prop
  | start : Reached {} []
  | step {store next : AsyncStore} {log events : List Event} (reached : Reached store log)
      (taken : Step store events next) : Reached next (log ++ events)

section Held

variable {store : AsyncStore} {job : AsyncWriteJob} {kind : FileKind}

theorem heldJobs_eq_nil :
    store.heldJobs = [] ↔ store.active = none ∧ ∀ kind, store.pending kind = none := by
  rw [AsyncStore.heldJobs, List.append_eq_nil_iff, Option.toList_eq_nil_iff]
  refine and_congr_right fun _ => ?_
  rw [AsyncStore.pendingJobs, List.filterMap_eq_nil_iff]
  constructor
  · intro vacant kind
    exact vacant kind (by cases kind <;> decide)
  · intro vacant kind _
    exact vacant kind

variable (store kind) in
theorem setPending_pendingJobs (job : Option AsyncWriteJob) :
    (store.setPending kind job).pendingJobs.Perm
      (job.toList ++ (store.setPending kind none).pendingJobs) := by
  cases job with
  | none => exact List.Perm.refl _
  | some job =>
    cases first : store.pending .sram <;> cases second : store.pending .rtc <;>
      cases third : store.pending .sram_delta <;> cases kind <;>
      simp [AsyncStore.pendingJobs, AsyncStore.setPending, FileKind.all, first, second, third,
        List.Perm.swap]
    all_goals exact @List.perm_middle _ job [_, _] []

variable (store kind) in
theorem pendingJobs_take :
    store.pendingJobs.Perm
      ((store.pending kind).toList ++ (store.setPending kind none).pendingJobs) := by
  have same : store.setPending kind (store.pending kind) = store := by
    rw [AsyncStore.setPending, Function.update_eq_self]
  have split := setPending_pendingJobs store kind (store.pending kind)
  rwa [same] at split

end Held

/-- What holds of every store and its history. -/
structure Sound (store : AsyncStore) (log : List Event) : Prop where
  latched_idle : store.latched_failure ≠ none → store.heldJobs = []
  slot_kind : ∀ kind job, store.pending kind = some job → job.kind = kind
  fresh : ∀ job ∈ createdJobs log, job.address < store.allocations
  distinct : (createdJobs log).Nodup
  balance : (createdJobs log).Perm (destroyedJobs log ++ store.heldJobs)
  worker : log.foldlM followWorker none = some store.active
  order : ∀ kind, (startedOf kind log ++ (store.pending kind).toList).Sublist (acceptedOf kind log)
  fate : ∀ job, .accepted job ∈ log →
    .started job ∈ log ∨ store.pending job.kind = some job ∨ Replaced job log ∨ Dropped job log
  reported : ∀ before fault after, log = before ++ .latched fault :: after →
    Reported fault after ∧ (.acquired ∉ after → store.latched_failure = some fault)
  latest : ∀ kind job, (acceptedOf kind (session log)).getLast? = some job →
    .joined job .ok ∈ log ∨ store.active = some job ∨ store.pending kind = some job ∨
      store.latched_failure ≠ none
  drained : ∀ before after, log = before ++ .returned .drain none :: after →
    ∀ kind job, (acceptedOf kind (session before)).getLast? = some job → .joined job .ok ∈ before
  settled : ∀ before call outcome after, log = before ++ .returned call outcome :: after →
    call.settles = true → (createdJobs before).Perm (destroyedJobs before)

section Append

variable {before front events : List Event} {event : Event} {after : List Event}

theorem split_append {log : List Event} (split : log ++ events = before ++ event :: after) :
    (∃ rest, log = before ++ event :: rest ∧ after = rest ++ events) ∨
      ∃ front, events = front ++ event :: after ∧ before = log ++ front := by
  rcases List.append_eq_append_iff.mp split with ⟨front, before_eq, events_eq⟩ | ⟨rest, log_eq, rest_eq⟩
  · exact .inr ⟨front, events_eq, before_eq⟩
  · cases rest with
    | nil => exact .inr ⟨[], rest_eq.symm, by simpa using log_eq.symm⟩
    | cons head rest =>
      obtain ⟨rfl, rfl⟩ := List.cons.inj rest_eq
      exact .inl ⟨rest, log_eq, rfl⟩

theorem Replaced.append {job : AsyncWriteJob} {log : List Event} (replaced : Replaced job log) :
    Replaced job (log ++ events) := by
  obtain ⟨newer, before, after, rfl, old, new, same⟩ := replaced
  exact ⟨newer, before, after ++ events, by simp, old, List.mem_append_left _ new, same⟩

theorem Dropped.append {job : AsyncWriteJob} {log : List Event} (dropped : Dropped job log) :
    Dropped job (log ++ events) := by
  obtain ⟨before, fault, after, rfl, old⟩ := dropped
  exact ⟨before, fault, after ++ events, by simp, old⟩

end Append


section Projections

variable {log events : List Event} {jobs : List AsyncWriteJob} {kind : FileKind}

theorem createdJobs_append : createdJobs (log ++ events) = createdJobs log ++ createdJobs events :=
  List.filterMap_append

theorem destroyedJobs_append :
    destroyedJobs (log ++ events) = destroyedJobs log ++ destroyedJobs events :=
  List.filterMap_append

theorem acceptedOf_append :
    acceptedOf kind (log ++ events) = acceptedOf kind log ++ acceptedOf kind events := by
  rw [acceptedOf, List.filterMap_append, List.filter_append, acceptedOf, acceptedOf]

theorem startedOf_append :
    startedOf kind (log ++ events) = startedOf kind log ++ startedOf kind events := by
  rw [startedOf, List.filterMap_append, List.filter_append, startedOf, startedOf]

theorem destructions_create : createdJobs (jobs.map Event.destroyed) = [] := by
  simp [createdJobs, List.filterMap_map, Function.comp_def, Event.creation]

theorem destructions_accept : acceptedOf kind (jobs.map Event.destroyed) = [] := by
  simp [acceptedOf, List.filterMap_map, Function.comp_def, Event.acceptance]

theorem destructions_start : startedOf kind (jobs.map Event.destroyed) = [] := by
  simp [startedOf, List.filterMap_map, Function.comp_def, Event.start]

theorem destructions_destroy : destroyedJobs (jobs.map Event.destroyed) = jobs := by
  simp [destroyedJobs, List.filterMap_map, Function.comp_def, Event.destruction]

theorem destructions_worker (running : Option AsyncWriteJob) :
    (jobs.map Event.destroyed).foldlM followWorker running = some running := by
  induction jobs with
  | nil => rfl
  | cons job jobs induction =>
    rw [List.map_cons, List.foldlM_cons]
    cases running <;> exact induction

theorem mem_acceptedOf {job : AsyncWriteJob} :
    job ∈ acceptedOf kind log ↔ .accepted job ∈ log ∧ job.kind = kind := by
  rw [acceptedOf, List.mem_filter, decide_eq_true_eq, List.mem_filterMap]
  refine and_congr_left fun _ => ⟨?_, fun member => ⟨_, member, rfl⟩⟩
  rintro ⟨event, member, accepted⟩
  cases event <;> cases accepted
  exact member

theorem session_append (open_ : .acquired ∉ events) :
    session (log ++ events) = session log ++ events := by
  induction events using List.reverseRecOn with
  | nil => simp
  | append_singleton events event induction =>
    rw [List.mem_append, List.mem_singleton, not_or] at open_
    rw [← List.append_assoc, session, List.rtakeWhile_concat, if_pos (by simpa using Ne.symm open_.2),
      ← session, induction open_.1, List.append_assoc]

end Projections

section Preservation

variable {store next : AsyncStore} {log events : List Event}

variable {kind : FileKind} {job : AsyncWriteJob} {fault : BackendError}

theorem Sound.next_latched_idle (sound : Sound store log) (step : Step store events next)
    (latched : next.latched_failure ≠ none) : next.heldJobs = [] := by
  cases step with
  | lock lock_writer => exact sound.latched_idle latched
  | acquire idle => exact absurd rfl latched
  | refuse fresh sequence => exact sound.latched_idle latched
  | hand fresh sequence unlatched free vacant => exact absurd unlatched latched
  | queue fresh sequence unlatched vacant => exact absurd unlatched latched
  | replace fresh sequence unlatched waits => exact absurd unlatched latched
  | start free waits =>
    have idle := (heldJobs_eq_nil.mp (sound.latched_idle latched)).2
    rw [idle] at waits
    cases waits
  | complete runs =>
    have idle := (heldJobs_eq_nil.mp (sound.latched_idle latched)).1
    rw [idle] at runs
    cases runs
  | fail runs result fault | giveUp free waits fault =>
    exact heldJobs_eq_nil.mpr ⟨rfl, fun _ => rfl⟩
  | returned call outcome reports drains settles => exact sound.latched_idle latched

theorem setPending_slot {slot : Option AsyncWriteJob} (other : FileKind) :
    (store.setPending kind slot).pending other = if other = kind then slot else store.pending other :=
  Function.update_apply _ _ _ _

theorem Sound.next_slot_kind (sound : Sound store log) (step : Step store events next) :
    ∀ kind job, next.pending kind = some job → job.kind = kind := by
  have placed {kind : FileKind} {slot : Option AsyncWriteJob}
      (own : ∀ job, slot = some job → job.kind = kind) (before : AsyncStore)
      (same : before.pending = store.pending) :
      ∀ other job, (before.setPending kind slot).pending other = some job → job.kind = other := by
    intro other job found
    rw [setPending_slot] at found
    split at found
    · next equal => exact equal ▸ own job found
    · exact sound.slot_kind other job (same ▸ found)
  cases step with
  | lock lock_writer => exact sound.slot_kind
  | acquire idle => exact sound.slot_kind
  | refuse fresh sequence => exact sound.slot_kind
  | hand fresh sequence unlatched free vacant => exact sound.slot_kind
  | queue fresh sequence unlatched vacant | replace fresh sequence unlatched waits =>
    exact placed (by rintro _ ⟨⟩; rfl) _ rfl
  | start free waits => exact placed (by rintro _ ⟨⟩) store rfl
  | complete runs => exact sound.slot_kind
  | fail runs result fault | giveUp free waits fault => rintro _ _ ⟨⟩
  | returned call outcome reports drains settles => exact sound.slot_kind

theorem Step.creates (step : Step store events next) :
    (createdJobs events = [] ∧ next.allocations = store.allocations) ∨
      ∃ job, createdJobs events = [job] ∧ job.address = store.allocations ∧
        next.allocations = store.allocations + 1 := by
  cases step with
  | lock lock_writer | acquire idle => exact .inl ⟨rfl, rfl⟩
  | refuse fresh sequence => exact .inr ⟨_, rfl, fresh, rfl⟩
  | hand fresh sequence unlatched free vacant => exact .inr ⟨_, rfl, fresh, rfl⟩
  | queue fresh sequence unlatched vacant => exact .inr ⟨_, rfl, fresh, rfl⟩
  | replace fresh sequence unlatched waits => exact .inr ⟨_, rfl, fresh, rfl⟩
  | start free waits | complete runs => exact .inl ⟨rfl, rfl⟩
  | fail runs result fault | giveUp free waits fault => exact .inl ⟨destructions_create, rfl⟩
  | returned call outcome reports drains settles => exact .inl ⟨rfl, rfl⟩

theorem Sound.next_fresh (sound : Sound store log) (step : Step store events next) :
    ∀ job ∈ createdJobs (log ++ events), job.address < next.allocations := by
  intro job member
  rw [createdJobs_append, List.mem_append] at member
  rcases step.creates with ⟨none_created, same⟩ | ⟨added, one_created, address, more⟩
  · rw [none_created] at member
    rw [same]
    exact sound.fresh job (member.resolve_right List.not_mem_nil)
  · rw [one_created, List.mem_singleton] at member
    rw [more]
    rcases member with member | rfl
    · exact Nat.lt_succ_of_lt (sound.fresh job member)
    · exact address ▸ Nat.lt_succ_self _

theorem Sound.next_distinct (sound : Sound store log) (step : Step store events next) :
    (createdJobs (log ++ events)).Nodup := by
  rw [createdJobs_append]
  rcases step.creates with ⟨none_created, -⟩ | ⟨added, one_created, address, -⟩
  · rw [none_created, List.append_nil]
    exact sound.distinct
  · rw [one_created]
    refine List.nodup_append.mpr ⟨sound.distinct, List.nodup_singleton _, ?_⟩
    intro former member latter same equal
    rw [List.mem_singleton.mp same] at equal
    have older := sound.fresh former member
    rw [equal, address] at older
    exact Nat.lt_irrefl _ older

theorem Step.balance (step : Step store events next) :
    (store.heldJobs ++ createdJobs events).Perm (destroyedJobs events ++ next.heldJobs) := by
  have placed (job : AsyncWriteJob) (other : AsyncWriteJob) :=
    (setPending_pendingJobs store job.kind (some job)).count_eq other
  have taken (kind : FileKind) (other : AsyncWriteJob) :=
    (pendingJobs_take store kind).count_eq other
  simp only [List.count_append, Option.toList_some] at placed taken
  rw [List.perm_iff_count]
  intro other
  rw [List.count_append, List.count_append]
  cases step with
  | lock lock_writer | acquire idle | refuse fresh sequence => exact Nat.add_comm _ _
  | @hand job fresh sequence unlatched free vacant =>
    change List.count other (store.active.toList ++ store.pendingJobs) + List.count other [job] =
      0 + List.count other ([job] ++ store.pendingJobs)
    rw [free, List.count_append, List.count_append, Option.toList_none, List.count_nil]
    omega
  | @queue job fresh sequence unlatched vacant =>
    have before := taken job.kind other
    rw [vacant, Option.toList_none, List.count_nil] at before
    change List.count other (store.active.toList ++ store.pendingJobs) + List.count other [job] =
      0 + List.count other (store.active.toList ++ (store.setPending job.kind (some job)).pendingJobs)
    rw [List.count_append, List.count_append, placed job other]
    omega
  | @replace job older fresh sequence unlatched waits =>
    have before := taken job.kind other
    rw [waits, Option.toList_some] at before
    change List.count other (store.active.toList ++ store.pendingJobs) + List.count other [job] =
      List.count other [older] +
        List.count other (store.active.toList ++ (store.setPending job.kind (some job)).pendingJobs)
    rw [List.count_append, List.count_append, placed job other]
    omega
  | @start job free waits =>
    have before := taken job.kind other
    rw [waits, Option.toList_some] at before
    change List.count other (store.active.toList ++ store.pendingJobs) + 0 =
      0 + List.count other ([job] ++ (store.setPending job.kind none).pendingJobs)
    rw [free, List.count_append, List.count_append, Option.toList_none, List.count_nil]
    omega
  | @complete job runs =>
    change List.count other (store.active.toList ++ store.pendingJobs) + 0 =
      List.count other [job] + List.count other store.pendingJobs
    rw [runs, List.count_append, Option.toList_some, Nat.add_zero]
  | @fail job runs result fault =>
    change List.count other (store.active.toList ++ store.pendingJobs) +
        List.count other (createdJobs (store.pendingJobs.map Event.destroyed)) =
      List.count other ([job] ++ destroyedJobs (store.pendingJobs.map Event.destroyed)) + 0
    rw [runs, destructions_create, destructions_destroy]
    rfl
  | @giveUp job free waits fault =>
    have before := taken job.kind other
    rw [waits, Option.toList_some] at before
    change List.count other (store.active.toList ++ store.pendingJobs) +
        List.count other (createdJobs
          ((store.setPending job.kind none).pendingJobs.map Event.destroyed)) =
      List.count other ([job] ++ destroyedJobs
          ((store.setPending job.kind none).pendingJobs.map Event.destroyed)) + 0
    rw [free, destructions_create, destructions_destroy, List.count_append, List.count_append,
      Option.toList_none, List.count_nil]
    omega
  | returned call outcome reports drains settles => exact Nat.add_comm _ _

theorem Sound.next_balance (sound : Sound store log) (step : Step store events next) :
    (createdJobs (log ++ events)).Perm (destroyedJobs (log ++ events) ++ next.heldJobs) := by
  rw [createdJobs_append, destroyedJobs_append, List.append_assoc]
  have before := sound.balance.append_right (createdJobs events)
  rw [List.append_assoc] at before
  exact before.trans (step.balance.append_left _)

theorem Sound.next_worker (sound : Sound store log) (step : Step store events next) :
    (log ++ events).foldlM followWorker none = some next.active := by
  rw [List.foldlM_append, sound.worker, Option.bind_eq_bind, Option.bind_some]
  cases step with
  | lock lock_writer => rfl
  | acquire idle => cases store.active <;> rfl
  | refuse fresh sequence => cases h : store.active <;> simp [AsyncStore.allocate, h] <;> rfl
  | hand fresh sequence unlatched free vacant => rw [free]; rfl
  | queue fresh sequence unlatched vacant | replace fresh sequence unlatched waits =>
    cases h : store.active <;> simp [AsyncStore.allocate, AsyncStore.setPending, h] <;> rfl
  | start free waits => rw [free]; rfl
  | complete runs => rw [runs]; simp [followWorker]
  | fail runs result fault => rw [runs]; simp [followWorker, destructions_worker]; rfl
  | giveUp free waits fault => rw [free]; simp [followWorker, destructions_worker]; rfl
  | returned call outcome reports drains settles => cases store.active <;> rfl

/-- What a step does with the snapshots of a kind. -/
inductive Effect (store next : AsyncStore) (events : List Event) (kind : FileKind) : Prop
  | quiet (started : startedOf kind events = []) (accepted : acceptedOf kind events = [])
      (kept : next.pending kind = store.pending kind)
  | cleared (started : startedOf kind events = []) (accepted : acceptedOf kind events = [])
      (gone : next.pending kind = none) (fault : BackendError) (latched : .latched fault ∈ events)
  | handed (job : AsyncWriteJob) (started : startedOf kind events = [job])
      (accepted : acceptedOf kind events = [job]) (kept : next.pending kind = store.pending kind)
      (vacant : store.pending kind = none) (runs : next.active = some job)
  | queued (job : AsyncWriteJob) (started : startedOf kind events = [])
      (accepted : acceptedOf kind events = [job]) (waits : next.pending kind = some job)
      (ahead : ∀ older, store.pending kind = some older → ∃ front rest,
        events = front ++ .replaced older job :: rest ∧ .accepted job ∈ rest)
  | taken (job : AsyncWriteJob) (started : startedOf kind events = [job])
      (accepted : acceptedOf kind events = []) (waited : store.pending kind = some job)
      (gone : next.pending kind = none) (runs : next.active = some job)

theorem startedOf_foreign (other : job.kind ≠ kind)
    (events : List Event) : startedOf kind (.started job :: events) = startedOf kind events :=
  List.filter_cons_of_neg (by simpa using other)

theorem acceptedOf_foreign (other : job.kind ≠ kind)
    (events : List Event) : acceptedOf kind (.accepted job :: events) = acceptedOf kind events :=
  List.filter_cons_of_neg (by simpa using other)

theorem startedOf_own (job : AsyncWriteJob) (events : List Event) :
    startedOf job.kind (.started job :: events) = job :: startedOf job.kind events :=
  List.filter_cons_of_pos (by simp)

theorem acceptedOf_own (job : AsyncWriteJob) (events : List Event) :
    acceptedOf job.kind (.accepted job :: events) = job :: acceptedOf job.kind events :=
  List.filter_cons_of_pos (by simp)

theorem Step.effect (step : Step store events next) (kind : FileKind) :
    Effect store next events kind := by
  cases step with
  | lock lock_writer | acquire idle | refuse fresh sequence => exact .quiet rfl rfl rfl
  | @hand job fresh sequence unlatched free vacant =>
    by_cases own : job.kind = kind
    · subst own
      exact .handed job (startedOf_own job _) (acceptedOf_own job _) rfl vacant rfl
    · exact .quiet (startedOf_foreign own _) (acceptedOf_foreign own _) rfl
  | @queue job fresh sequence unlatched vacant =>
    by_cases own : job.kind = kind
    · subst own
      refine .queued job rfl (acceptedOf_own job _) (Function.update_self _ _ _) ?_
      intro older waits
      rw [vacant] at waits
      cases waits
    · exact .quiet rfl (acceptedOf_foreign own _) (Function.update_of_ne (Ne.symm own) _ _)
  | @replace job older fresh sequence unlatched waits =>
    by_cases own : job.kind = kind
    · subst own
      refine .queued job rfl (acceptedOf_own job _) (Function.update_self _ _ _) ?_
      intro waiting same
      obtain rfl := Option.some.inj (waits.symm.trans same)
      exact ⟨[.created job], [.destroyed older, .accepted job], rfl, by simp⟩
    · exact .quiet rfl (acceptedOf_foreign own _) (Function.update_of_ne (Ne.symm own) _ _)
  | @start job free waits =>
    by_cases own : job.kind = kind
    · subst own
      exact .taken job (startedOf_own job _) rfl waits (Function.update_self _ _ _) rfl
    · exact .quiet (startedOf_foreign own _) rfl (Function.update_of_ne (Ne.symm own) _ _)
  | complete runs => exact .quiet rfl rfl rfl
  | fail runs result fault =>
    exact .cleared destructions_start destructions_accept rfl fault (by simp)
  | giveUp free waits fault =>
    exact .cleared destructions_start destructions_accept rfl fault (by simp)
  | returned call outcome reports drains settles => exact .quiet rfl rfl rfl

theorem Sound.next_order (sound : Sound store log) (step : Step store events next)
    (kind : FileKind) :
    (startedOf kind (log ++ events) ++ (next.pending kind).toList).Sublist
      (acceptedOf kind (log ++ events)) := by
  rw [startedOf_append, acceptedOf_append]
  have order := sound.order kind
  have handed : (startedOf kind log).Sublist (acceptedOf kind log) :=
    (List.sublist_append_left _ _).trans order
  cases step.effect kind with
  | quiet started accepted kept =>
    rw [started, accepted, kept, List.append_nil, List.append_nil]
    exact order
  | cleared started accepted gone fault latched =>
    rw [started, accepted, gone, List.append_nil, List.append_nil]
    exact (List.append_nil (startedOf kind log)).symm ▸ handed
  | handed job started accepted kept vacant runs =>
    rw [started, accepted, kept, vacant]
    exact (List.append_nil (startedOf kind log ++ [job])).symm ▸ handed.append_right [job]
  | queued job started accepted waits ahead =>
    rw [started, accepted, waits, List.append_nil]
    exact handed.append_right [job]
  | taken job started accepted waited gone runs =>
    rw [started, accepted, gone, List.append_nil]
    rw [waited] at order
    exact (List.append_nil (startedOf kind log ++ [job])).symm ▸ order

theorem mem_startedOf :
    job ∈ startedOf kind log ↔ .started job ∈ log ∧ job.kind = kind := by
  rw [startedOf, List.mem_filter, decide_eq_true_eq, List.mem_filterMap]
  refine and_congr_left fun _ => ⟨?_, fun member => ⟨_, member, rfl⟩⟩
  rintro ⟨event, member, started⟩
  cases event <;> cases started
  exact member

theorem Sound.next_fate (sound : Sound store log) (step : Step store events next)
    (job : AsyncWriteJob) (accepted : .accepted job ∈ log ++ events) :
    .started job ∈ log ++ events ∨ next.pending job.kind = some job ∨
      Replaced job (log ++ events) ∨ Dropped job (log ++ events) := by
  have starts (started : startedOf job.kind events = [job]) : .started job ∈ log ++ events := by
    have member : job ∈ startedOf job.kind events := started ▸ List.mem_singleton_self job
    exact List.mem_append_right _ (mem_startedOf.mp member).1
  rcases List.mem_append.mp accepted with former | latter
  · rcases sound.fate job former with started | waits | replaced | dropped
    · exact .inl (List.mem_append_left _ started)
    · cases step.effect job.kind with
      | quiet started accepted kept => exact .inr (.inl (kept.trans waits))
      | cleared started accepted gone fault latched =>
        obtain ⟨front, rest, rfl⟩ := List.append_of_mem latched
        exact .inr (.inr (.inr ⟨log ++ front, fault, rest, by simp,
          List.mem_append_left _ former⟩))
      | handed job started accepted kept vacant runs =>
        rw [vacant] at waits
        cases waits
      | queued newer started accepted waiting ahead =>
        obtain ⟨front, rest, rfl, new⟩ := ahead job waits
        have member : newer ∈ acceptedOf job.kind _ := accepted ▸ List.mem_singleton_self newer
        exact .inr (.inr (.inl ⟨newer, log ++ front, rest, by simp,
          List.mem_append_left _ former, new, (mem_acceptedOf.mp member).2⟩))
      | taken taken_job started accepted waited gone runs =>
        obtain rfl := Option.some.inj (waited.symm.trans waits)
        exact .inl (starts started)
    · exact .inr (.inr (.inl replaced.append))
    · exact .inr (.inr (.inr dropped.append))
  · have member : job ∈ acceptedOf job.kind events := mem_acceptedOf.mpr ⟨latter, rfl⟩
    cases step.effect job.kind with
    | quiet started accepted kept =>
      rw [accepted] at member
      cases member
    | cleared started accepted gone fault latched =>
      rw [accepted] at member
      cases member
    | handed own started accepted kept vacant runs =>
      rw [accepted, List.mem_singleton] at member
      subst member
      exact .inl (starts started)
    | queued own started accepted waits ahead =>
      rw [accepted, List.mem_singleton] at member
      subst member
      exact .inr (.inl waits)
    | taken own started accepted waited gone runs =>
      rw [accepted] at member
      cases member

theorem Step.keeps_latched (step : Step store events next) (idle : store.heldJobs = []) (latched : store.latched_failure = some fault)
    (open_ : .acquired ∉ events) : next.latched_failure = some fault := by
  obtain ⟨vacant, none_waits⟩ := heldJobs_eq_nil.mp idle
  cases step with
  | lock lock_writer => exact latched
  | acquire idle => exact absurd (List.mem_singleton_self _) open_
  | refuse fresh sequence => exact latched
  | hand fresh sequence unlatched free vacant => exact latched
  | queue fresh sequence unlatched vacant => exact latched
  | replace fresh sequence unlatched waits => exact latched
  | start free waits => exact latched
  | complete runs => exact latched
  | fail runs result fault =>
    rw [vacant] at runs
    cases runs
  | giveUp free waits fault =>
    rw [none_waits] at waits
    cases waits
  | returned call outcome reports drains settles => exact latched

theorem Step.latches (step : Step store events next) (latched : .latched fault ∈ events) :
    next.latched_failure = some fault ∧ ∀ call outcome, .returned call outcome ∉ events := by
  cases step with
  | fail runs result other | giveUp free waits other =>
    simp only [List.mem_cons, List.mem_map, reduceCtorEq, false_or, and_false, exists_false,
      or_false, Event.latched.injEq] at latched
    subst latched
    exact ⟨rfl, by simp⟩
  | _ => simp at latched

theorem Step.returns (step : Step store events next) {call : Call} {outcome : Outcome}
    (returned : .returned call outcome ∈ events) :
    events = [.returned call outcome] ∧
      (call.reports = true → ∀ fault, store.latched_failure = some fault →
        outcome = some fault) ∧
      (call = .drain → outcome = none → store.latched_failure = none) ∧
      (call.settles = true → store.heldJobs = []) := by
  cases step with
  | returned other result reports drains settles =>
    obtain ⟨rfl, rfl⟩ : call = other ∧ outcome = result := by simpa using returned
    exact ⟨rfl, reports, drains, settles⟩
  | _ => simp at returned

theorem reported_append (former : Reported fault log)
    (latter : .acquired ∉ log → ∀ call outcome, .returned call outcome ∈ events →
      call.reports = true → outcome = some fault) : Reported fault (log ++ events) := by
  intro call outcome member reports
  rw [List.takeWhile_append] at member
  split at member
  · next whole =>
      have same := (List.takeWhile_prefix _).eq_of_length whole
      have open_ : .acquired ∉ log := by
        intro found
        rw [← same] at found
        simpa using List.mem_takeWhile_imp found
      rcases List.mem_append.mp member with member | member
      · exact former call outcome (same.symm ▸ member) reports
      · exact latter open_ call outcome ((List.takeWhile_sublist _).subset member) reports
  · exact former call outcome member reports

theorem Sound.next_reported (sound : Sound store log) (step : Step store events next)
    (before : List Event) (fault : BackendError) (after : List Event)
    (split : log ++ events = before ++ .latched fault :: after) :
    Reported fault after ∧ (.acquired ∉ after → next.latched_failure = some fault) := by
  rcases split_append split with ⟨rest, log_eq, rfl⟩ | ⟨front, rfl, -⟩
  · obtain ⟨reported, still⟩ := sound.reported before fault rest log_eq
    constructor
    · apply reported_append reported
      intro open_ call outcome member reports
      exact (step.returns member).2.1 reports fault (still open_)
    · intro open_
      rw [List.mem_append, not_or] at open_
      have latched := still open_.1
      have idle := sound.latched_idle (by rw [latched]; exact Option.some_ne_none _)
      exact step.keeps_latched idle latched open_.2
  · obtain ⟨latched, unreturned⟩ := step.latches (List.mem_append_right _ (.head _))
    refine ⟨fun call outcome member => ?_, fun _ => latched⟩
    have inside := (List.takeWhile_sublist _).subset member
    exact absurd (List.mem_append_right _ (.tail _ inside))
      (unreturned call outcome)

theorem Step.active (step : Step store events next) (runs : store.active = some job) :
    next.active = some job ∨ .joined job .ok ∈ events ∨ next.latched_failure ≠ none := by
  cases step with
  | lock lock_writer => exact .inl runs
  | acquire idle =>
    rw [(heldJobs_eq_nil.mp idle).1] at runs
    cases runs
  | refuse fresh sequence => exact .inl runs
  | hand fresh sequence unlatched free vacant =>
    rw [free] at runs
    cases runs
  | queue fresh sequence unlatched vacant | replace fresh sequence unlatched waits =>
    exact .inl runs
  | start free waits =>
    rw [free] at runs
    cases runs
  | complete own =>
    obtain rfl := Option.some.inj (own.symm.trans runs)
    exact .inr (.inl (.head _))
  | fail own result fault => exact .inr (.inr (Option.some_ne_none fault))
  | giveUp free waits fault => exact .inr (.inr (Option.some_ne_none fault))
  | returned call outcome reports drains settles => exact .inl runs

theorem Step.acquires (step : Step store events next) :
    events = [.acquired] ∨ .acquired ∉ events := by
  cases step with
  | acquire idle => exact .inl rfl
  | _ => exact .inr (by simp)

theorem Sound.next_latest (sound : Sound store log) (step : Step store events next)
    (kind : FileKind) (job : AsyncWriteJob)
    (latest : (acceptedOf kind (session (log ++ events))).getLast? = some job) :
    .joined job .ok ∈ log ++ events ∨ next.active = some job ∨ next.pending kind = some job ∨
      next.latched_failure ≠ none := by
  rcases step.acquires with rfl | open_
  · rw [session, List.rtakeWhile_concat, if_neg (by simp)] at latest
    cases latest
  rw [session_append open_, acceptedOf_append] at latest
  have stays (latched : store.latched_failure ≠ none) : next.latched_failure ≠ none := by
    obtain ⟨fault, latched_eq⟩ := Option.ne_none_iff_exists'.mp latched
    rw [step.keeps_latched (sound.latched_idle latched) latched_eq open_]
    exact Option.some_ne_none fault
  have former (same : acceptedOf kind events = []) :
      .joined job .ok ∈ log ++ events ∨ next.active = some job ∨ store.pending kind = some job ∨
        next.latched_failure ≠ none := by
    rw [same, List.append_nil] at latest
    rcases sound.latest kind job latest with written | runs | waits | latched
    · exact .inl (List.mem_append_left _ written)
    · rcases step.active runs with runs | written | latched
      · exact .inr (.inl runs)
      · exact .inl (List.mem_append_right _ written)
      · exact .inr (.inr (.inr latched))
    · exact .inr (.inr (.inl waits))
    · exact .inr (.inr (.inr (stays latched)))
  cases step.effect kind with
  | quiet started accepted kept => exact kept ▸ former accepted
  | cleared started accepted gone fault latched =>
    rw [(step.latches latched).1]
    exact .inr (.inr (.inr (Option.some_ne_none fault)))
  | handed own started accepted kept vacant runs =>
    rw [accepted, List.getLast?_concat] at latest
    exact .inr (.inl (runs.trans latest))
  | queued own started accepted waits ahead =>
    rw [accepted, List.getLast?_concat] at latest
    exact .inr (.inr (.inl (waits.trans latest)))
  | taken own started accepted waited gone runs =>
    rcases former accepted with written | running | waits | latched
    · exact .inl written
    · exact .inr (.inl running)
    · exact .inr (.inl (runs.trans (waited.symm.trans waits)))
    · exact .inr (.inr (.inr latched))

theorem Step.returned_split (step : Step store events next) {call : Call} {outcome : Outcome}
    {front after : List Event} (split : events = front ++ .returned call outcome :: after) :
    front = [] := by
  have member : .returned call outcome ∈ events := by rw [split]; simp
  have single := (step.returns member).1
  rw [single] at split
  cases front with
  | nil => rfl
  | cons head front =>
    have lengths := congrArg List.length split
    simp at lengths

theorem Sound.next_drained (sound : Sound store log) (step : Step store events next)
    (before after : List Event) (split : log ++ events = before ++ .returned .drain none :: after)
    (kind : FileKind) (job : AsyncWriteJob)
    (latest : (acceptedOf kind (session before)).getLast? = some job) :
    .joined job .ok ∈ before := by
  rcases split_append split with ⟨rest, log_eq, -⟩ | ⟨front, events_eq, rfl⟩
  · exact sound.drained before rest log_eq kind job latest
  · obtain rfl := step.returned_split events_eq
    rw [List.append_nil] at latest ⊢
    obtain ⟨-, -, drains, settles⟩ := step.returns (by rw [events_eq]; exact (.head _))
    obtain ⟨vacant, none_waits⟩ := heldJobs_eq_nil.mp (settles rfl)
    rcases sound.latest kind job latest with written | runs | waits | latched
    · exact written
    · rw [vacant] at runs
      cases runs
    · rw [none_waits] at waits
      cases waits
    · exact absurd (drains rfl rfl) latched

theorem Sound.next_settled (sound : Sound store log) (step : Step store events next)
    (before : List Event) (call : Call) (outcome : Outcome) (after : List Event)
    (split : log ++ events = before ++ .returned call outcome :: after)
    (settles : call.settles = true) :
    (createdJobs before).Perm (destroyedJobs before) := by
  rcases split_append split with ⟨rest, log_eq, -⟩ | ⟨front, events_eq, rfl⟩
  · exact sound.settled before call outcome rest log_eq settles
  · obtain rfl := step.returned_split events_eq
    have idle := (step.returns (by rw [events_eq]; exact (.head _))).2.2.2 settles
    have balance := sound.balance
    rw [idle, List.append_nil] at balance
    rwa [List.append_nil]

theorem Sound.step (sound : Sound store log) (step : Step store events next) :
    Sound next (log ++ events) where
  latched_idle := sound.next_latched_idle step
  slot_kind := sound.next_slot_kind step
  fresh := sound.next_fresh step
  distinct := sound.next_distinct step
  balance := sound.next_balance step
  worker := sound.next_worker step
  order := sound.next_order step
  fate := sound.next_fate step
  reported := sound.next_reported step
  latest := sound.next_latest step
  drained := sound.next_drained step
  settled := sound.next_settled step

end Preservation

theorem sound_start : Sound {} [] where
  latched_idle := fun latched => absurd rfl latched
  slot_kind := by rintro _ _ ⟨⟩
  fresh := fun _ member => nomatch member
  distinct := List.nodup_nil
  balance := List.Perm.refl _
  worker := rfl
  order _ := List.Sublist.refl _
  fate := fun _ member => nomatch member
  reported before fault after split := by simp at split
  latest := by rintro _ _ ⟨⟩
  drained before after split := by simp at split
  settled before call outcome after split := by simp at split

theorem Reached.sound {store : AsyncStore} {log : List Event} (reached : Reached store log) :
    Sound store log := by
  induction reached with
  | start => exact sound_start
  | step reached taken induction => exact induction.step taken

end R4OS.Persistence
